import VirtioMem.Host.Devices

/-!
# Commands are written ahead

A command to resize, settle or extend is preceded by the saved intent it carries out. A device that
started out converged is therefore never found pending without an owner, wherever a process is cut
(`Owned`).

Widening the usable region is the exception. It is sent with nothing saved, and it requests the whole
device before it restores what was requested: where it stops in between, a restarted controller finds a
device that nobody owns.
-/

namespace VirtioMem.Host

open VirtioMem.Core VirtioMem.Effect VirtioMem.Word

variable {pool : Option Nat} {configs : List HostConfig} {config : HostConfig} {index : Nat}
  {labels : List Label} {process : Option HostRuntime} {D D' : Devices} {w : VmWorld}
  {d d' : VirtioMemState}

/-- Every size the device may be left requested at, when the command is cut or of unknown outcome. -/
def Command.sizes : Command → List Nat
  | resize _ _ target _ => [target]
  | retarget _ target => [target]
  | widen expected => [expected.maximumTargetBytes, expected.requestedBytes]

/-- What is saved holds an intent for whatever the command leaves. -/
def WrittenAhead (w : VmWorld) (command : Command) : Prop :=
  ∃ intent, w.control.intent = some intent ∧ ∀ size ∈ command.sizes, intent.targetBytes = size

/-- **A command is written ahead exactly if it is no widening.** -/
theorem VmWorld.May.writtenAhead_iff {stage : Stage} {committed : Nat} {command : Command}
    (h : w.May config stage committed command.op) :
    WrittenAhead w command ↔ ∀ expected, command ≠ .widen expected := by
  cases command with
  | resize request expected target authorize =>
      obtain ⟨-, -, -, -, -, -, ⟨intent, hintent, htarget⟩, -⟩ := h
      refine ⟨fun _ => nofun, fun _ => ⟨intent, hintent, ?_⟩⟩
      intro size hsize
      rw [List.mem_singleton.mp hsize]
      exact htarget
  | retarget expected target =>
      obtain ⟨-, -, -, -, intent, hintent, htarget, -⟩ := h
      refine ⟨fun _ => nofun, fun _ => ⟨intent, hintent, ?_⟩⟩
      intro size hsize
      rw [List.mem_singleton.mp hsize]
      exact htarget
  | widen expected =>
      obtain ⟨-, -, -, -, hidle⟩ := h
      constructor
      · rintro ⟨intent, hintent, -⟩
        rw [hidle] at hintent
        cases hintent
      · intro hnot
        exact absurd rfl (hnot expected)

/-! ## The device has an owner -/

/-- The device is converged, and as it was read in this round, if it was. -/
structure Still (w : VmWorld) (d : VirtioMemState) : Prop where
  converged : d.requestedBytes = d.currentBytes
  read : w.fresh = true → w.live = some d

/-- What an observer knows agrees with the device: it has moved on from the last reading of this round
at most by itself, and it stands still where no intent is saved, and while a command is about to be sent
or was refused. -/
structure Owned (w : VmWorld) (d : VirtioMemState) : Prop where
  seen : w.fresh = true → ∃ live, w.live = some live ∧ Drifts live d
  pending : w.control.intent = none → Still w d
  quiet : w.phase = .armed ∨ w.phase = .rejected → Still w d

/-- Nothing that was asked for is a widening. -/
def notWidening (op : VmOp) (_ : VmAns op) : Prop := ∀ expected, op ≠ .widenUsableRegion expected

/-- A device that was read as converged is still as it was read. -/
theorem still_of_read (hseen : w.fresh = true → ∃ live, w.live = some live ∧ Drifts live d)
    {live : VirtioMemState} (hfresh : w.fresh = true) (hlive : w.live = some live)
    (hconverged : live.requestedBytes = live.currentBytes) : d = live ∧ Still w d := by
  obtain ⟨other, hother, hdrifts⟩ := hseen hfresh
  rw [hlive] at hother
  cases hother
  have heq := hdrifts.converged hconverged
  subst heq
  exact ⟨rfl, hconverged, fun _ => hlive⟩

theorem Still.drift (h : Still w d) (hdrifts : Drifts d d') : Still w d' := by
  rw [hdrifts.converged h.converged]
  exact h

theorem Owned.drift (h : Owned w d) (hdrifts : Drifts d d') : Owned w d' := by
  refine ⟨?_, fun hidle => (h.pending hidle).drift hdrifts, fun hphase => (h.quiet hphase).drift hdrifts⟩
  intro hfresh
  obtain ⟨live, hlive, hlast⟩ := h.seen hfresh
  exact ⟨live, hlive, hlast.trans hdrifts⟩

/-- Nothing but the reading matters to a device that stands still. -/
theorem Still.other {w' : VmWorld} (h : Still w d) (hfresh : w'.fresh = w.fresh)
    (hlive : w'.live = w.live) : Still w' d :=
  ⟨h.converged, fun hread => hlive.trans (h.read (hfresh ▸ hread))⟩

/-- Only the reading, the phase and what is saved matter. -/
theorem Owned.other {w' : VmWorld} (h : Owned w d) (hcontrol : w'.control = w.control)
    (hfresh : w'.fresh = w.fresh) (hlive : w'.live = w.live) (hphase : w'.phase = w.phase) :
    Owned w' d := by
  refine ⟨?_, fun hidle => (h.pending (hcontrol ▸ hidle)).other hfresh hlive,
    fun hquiet => (h.quiet (hphase ▸ hquiet)).other hfresh hlive⟩
  rw [hfresh, hlive]
  exact h.seen

/-- A reading tells the truth. -/
theorem Owned.read (h : Owned w d) {answer : Except String VirtioMemState}
    (hanswer : ∀ state, answer = .ok state → state = d) : Owned (w.read answer) d := by
  rcases w.read_cases answer with hread | ⟨state, hok, -, hread⟩
  · rw [hread]
    exact h.other rfl rfl rfl rfl
  · cases hanswer state hok
    rw [hread]
    exact ⟨fun _ => ⟨d, rfl, .refl _⟩, fun hidle => ⟨(h.pending hidle).converged, fun _ => rfl⟩,
      fun hphase => ⟨(h.quiet hphase).converged, fun _ => rfl⟩⟩

/-- A write that leaves no intent finds the device still. -/
theorem Owned.written {stage : Stage} {control : DurableControlState} (h : Owned w d)
    (hwrites : Writes config stage w control) (hidle : control.intent = none) : Still w d := by
  cases hwrites with
  | resolve _ _ _ hlive hfresh hrequested hcurrent =>
      exact (still_of_read h.seen hfresh hlive (hrequested.trans hcurrent.symm)).2
  | latch => exact h.pending hidle
  | begin => cases hidle
  | release _ hphase => exact h.quiet (.inr hphase)
  | unexecuted _ _ hnone => exact h.pending hnone
  | extend => cases hidle
  | restore => cases hidle
  | settle => cases hidle

theorem VmWorld.rejected_persist {file : CheckpointFile} {saved : Saved} :
    (w.persist file saved).phase ≠ .rejected := by
  unfold VmWorld.persist
  split
  · dsimp only
    split_ifs <;> simp
  all_goals simp

/-- A write keeps the agreement if it keeps the device from being left without an owner. -/
theorem Owned.persist (h : Owned w d) {file : CheckpointFile} (saved : Saved)
    (hidle : file.control.intent = none → Still w d) : Owned (w.persist file saved) d := by
  have hother : Still w d → Still (w.persist file saved) d :=
    fun hstill => hstill.other (by simp) (by simp)
  refine ⟨by simpa using h.seen, ?_, ?_⟩
  · intro hnone
    rcases w.control_persist saved with hsame | hfile
    · exact hother (h.pending (hsame ▸ hnone))
    · exact hother (hidle (hfile ▸ hnone))
  · rintro (harmed | hrejected)
    · exact hother (h.pending (VmWorld.armed_persist harmed).2.1)
    · exact absurd hrejected VmWorld.rejected_persist

/-- A command that is sent with its intent saved keeps it as well. -/
theorem Owned.command (h : Owned w d) {answer : Except ResizeSinkError Unit} {target : Nat}
    {intent : CommandIntent} (hintent : w.control.intent = some intent)
    (happlies : Applies d target answer d') {w' : VmWorld} (hcontrol : w'.control = w.control)
    (hfresh : w'.fresh = (w.fresh && VmWorld.refused answer)) (hlive : w'.live = w.live)
    (hphase : w'.phase = .armed ∨ w'.phase = .rejected →
      VmWorld.refused answer = true ∧ (w.phase = .armed ∨ w.phase = .rejected)) : Owned w' d' := by
  have hnone : w'.control.intent ≠ none := by
    rw [hcontrol, hintent]
    exact nofun
  cases hrefused : VmWorld.refused answer with
  | false =>
      rw [hrefused] at hfresh hphase
      refine ⟨?_, fun hidle => absurd hidle hnone, fun hquiet => absurd (hphase hquiet).1 nofun⟩
      intro hread
      rw [hfresh, Bool.and_false] at hread
      cases hread
  | true =>
      -- Nothing was applied, and the reading holds.
      rw [hrefused, Bool.and_true] at hfresh
      rw [happlies.refused hrefused]
      refine ⟨?_, fun hidle => absurd hidle hnone,
        fun hquiet => (h.quiet (hphase hquiet).2).other hfresh hlive⟩
      rw [hfresh, hlive]
      exact h.seen

theorem Owned.next {stage : Stage} {committed : Nat} {op : VmOp} {answer : VmAns op} (h : Owned w d)
    (hmay : w.May config stage committed op) (hallow : notWidening op answer)
    (hanswers : Answers d op answer d') : Owned (w.next op answer) d' := by
  cases op with
  | memoryState =>
      obtain ⟨rfl, htrue⟩ := hanswers
      exact h.read htrue
  | persist file =>
      cases hanswers
      exact h.persist answer fun hidle => h.written hmay hidle
  | requestResize request expected target authorize =>
      obtain ⟨harmed, -, -, -, -, -, ⟨intent, hintent, -⟩, -⟩ := hmay
      refine h.command hintent hanswers rfl rfl rfl ?_
      intro hphase
      refine ⟨?_, .inl harmed⟩
      by_contra hrefused
      have hidle : (w.resize answer.result).phase = .idle := if_neg hrefused
      change (w.resize answer.result).phase = _ ∨ (w.resize answer.result).phase = _ at hphase
      rw [hidle] at hphase
      rcases hphase with h | h <;> cases h
  | retargetPending expected target =>
      obtain ⟨hidle, -, -, -, intent, hintent, -⟩ := hmay
      refine h.command hintent hanswers rfl rfl rfl ?_
      intro (hphase : w.phase = _ ∨ w.phase = _)
      rw [hidle] at hphase
      rcases hphase with h | h <;> cases h
  | widenUsableRegion expected => exact absurd rfl (hallow expected)
  | _ =>
      cases hanswers
      exact h.other rfl rfl rfl rfl

theorem Owned.operate {op : VmOp} {answer : VmAns op} (h : Owned w d) (hmay : w.MayOperate op)
    (hanswers : Answers d op answer d') : Owned (w.next op answer) d' := by
  cases op with
  | memoryState =>
      obtain ⟨rfl, htrue⟩ := hanswers
      exact h.read htrue
  | nowUnixMillis =>
      cases hanswers
      exact h.other rfl rfl rfl rfl
  | persist file =>
      cases hanswers
      obtain ⟨live, now, reason, journal, hlive, hfresh, hconverged, -⟩ := hmay
      exact h.persist answer fun _ => (still_of_read h.seen hfresh hlive hconverged).2
  | retargetPending expected target =>
      obtain ⟨hlive, hfresh, hlower, -⟩ := hmay
      -- The device was read pending, so it does not stand still.
      have hnot : ¬ Still w d := by
        intro hstill
        have hread := hstill.read hfresh
        rw [hlive] at hread
        cases hread
        exact hlower.ne hstill.converged
      cases hintent : w.control.intent with
      | none => exact absurd (h.pending hintent) hnot
      | some intent =>
          refine h.command hintent hanswers rfl rfl rfl ?_
          intro (hphase : w.phase = _ ∨ w.phase = _)
          exact absurd (h.quiet hphase) hnot
  | _ => cases hmay

theorem Owned.restart (h : Owned w d) : Owned w.restart d :=
  ⟨nofun, fun hidle => ⟨(h.pending hidle).converged, nofun⟩, by rintro (h | h) <;> cases h⟩

theorem Owned.stale (h : Owned w d) : Owned w.stale d :=
  ⟨nofun, fun hidle => ⟨(h.pending hidle).converged, nofun⟩,
    fun hphase => ⟨(h.quiet hphase).converged, nofun⟩⟩

/-- **Every step but a widening keeps the device owned.** -/
theorem owned_keptBy : KeptBy configs index notWidening Owned where
  drift _ _ _ h hdrifts := h.drift hdrifts
  restart _ _ h := h.restart
  stale _ _ h := h.stale
  next _ _ _ _ _ _ _ _ _ h hmay hallow hanswers := h.next hmay hallow hanswers
  operate _ _ _ _ _ h hmay hanswers := h.operate hmay hanswers

/-! ## From the first command on

Nothing is assumed about the device a run begins with. Until the first command no intent is saved, and
the device may be pending on its own account. -/

/-- No command was sent yet, and the device agrees with the reading of this round. -/
structure Untouched (w : VmWorld) (d : VirtioMemState) : Prop where
  seen : w.fresh = true → ∃ live, w.live = some live ∧ Drifts live d
  idle : w.control.intent = none
  quiet : ¬ (w.phase = .armed ∨ w.phase = .rejected)

theorem Untouched.other {w' : VmWorld} (h : Untouched w d) (hcontrol : w'.control = w.control)
    (hfresh : w'.fresh = w.fresh) (hlive : w'.live = w.live) (hphase : w'.phase = w.phase) :
    Untouched w' d := by
  refine ⟨?_, hcontrol ▸ h.idle, hphase ▸ h.quiet⟩
  rw [hfresh, hlive]
  exact h.seen

theorem Untouched.read (h : Untouched w d) {answer : Except String VirtioMemState}
    (hanswer : ∀ state, answer = .ok state → state = d) : Untouched (w.read answer) d := by
  rcases w.read_cases answer with hread | ⟨state, hok, -, hread⟩
  · rw [hread]
    exact h.other rfl rfl rfl rfl
  · cases hanswer state hok
    rw [hread]
    exact ⟨fun _ => ⟨d, rfl, .refl _⟩, h.idle, h.quiet⟩

/-- Only a new command saves an intent where there was none, on a device that was read converged. -/
theorem Writes.starts {stage : Stage} {control : DurableControlState}
    (h : Writes config stage w control) (hidle : w.control.intent = none)
    (hstarts : control.intent.isSome) :
    ∃ live, w.live = some live ∧ w.fresh = true ∧ live.requestedBytes = live.currentBytes := by
  cases h with
  | resolve => cases hstarts
  | latch => rw [hidle] at hstarts; cases hstarts
  | begin _ _ hlive hfresh hconverged => exact ⟨_, hlive, hfresh, hconverged⟩
  | release => cases hstarts
  | unexecuted => rw [hidle] at hstarts; cases hstarts
  | extend _ _ hintent => rw [hidle] at hintent; cases hintent
  | restore _ _ hintent => rw [hidle] at hintent; cases hintent
  | settle _ _ hintent => rw [hidle] at hintent; cases hintent

/-- What an observer knows agrees with the device, before the first command as well. -/
def Watched (w : VmWorld) (d : VirtioMemState) : Prop := Owned w d ∨ Untouched w d

theorem Untouched.persist (h : Untouched w d) {file : CheckpointFile} (saved : Saved)
    (hstill : file.control.intent.isSome → Still w d) : Watched (w.persist file saved) d := by
  cases hintent : file.control.intent with
  | some intent =>
      have hstill := hstill (by rw [hintent]; rfl)
      have howned : Owned w d := ⟨h.seen, fun _ => hstill, fun _ => hstill⟩
      exact .inl (howned.persist saved fun hnone => absurd (hintent.symm.trans hnone) nofun)
  | none =>
      refine .inr ⟨by simpa using h.seen, ?_, ?_⟩
      · rcases w.control_persist saved with hsame | hfile
        · exact hsame ▸ h.idle
        · exact hfile ▸ hintent
      · rintro (harmed | hrejected)
        · have hsome := (VmWorld.armed_persist harmed).2.2
          rw [hintent] at hsome
          cases hsome
        · exact absurd hrejected VmWorld.rejected_persist

/-- A command is sent, so the device is no longer untouched. -/
theorem Watched.owned (h : Watched w d) {stage : Stage} {committed : Nat} {command : Command}
    (hmay : w.May config stage committed command.op) (hnot : ∀ expected, command ≠ .widen expected) :
    Owned w d := by
  rcases h with howned | huntouched
  · exact howned
  obtain ⟨intent, hintent, -⟩ := hmay.writtenAhead_iff.mpr hnot
  have hidle := huntouched.idle
  rw [hintent] at hidle
  cases hidle

theorem Watched.next {stage : Stage} {committed : Nat} {op : VmOp} {answer : VmAns op}
    (h : Watched w d) (hmay : w.May config stage committed op) (hallow : notWidening op answer)
    (hanswers : Answers d op answer d') : Watched (w.next op answer) d' := by
  rcases h with howned | huntouched
  · exact .inl (howned.next hmay hallow hanswers)
  cases op with
  | memoryState =>
      obtain ⟨rfl, htrue⟩ := hanswers
      exact .inr (huntouched.read htrue)
  | persist file =>
      cases hanswers
      apply huntouched.persist answer
      intro hstarts
      obtain ⟨live, hlive, hfresh, hconverged⟩ := Writes.starts hmay huntouched.idle hstarts
      exact (still_of_read huntouched.seen hfresh hlive hconverged).2
  | requestResize request expected target authorize =>
      obtain ⟨harmed, -⟩ := hmay
      exact absurd (.inl harmed) huntouched.quiet
  | retargetPending expected target =>
      obtain ⟨-, -, -, -, intent, hintent, -⟩ := hmay
      exact absurd (hintent.symm.trans huntouched.idle) nofun
  | widenUsableRegion expected => exact absurd rfl (hallow expected)
  | _ =>
      cases hanswers
      exact .inr (huntouched.other rfl rfl rfl rfl)

theorem Watched.operate {op : VmOp} {answer : VmAns op} (h : Watched w d) (hmay : w.MayOperate op)
    (hanswers : Answers d op answer d') : Watched (w.next op answer) d' := by
  rcases h with howned | huntouched
  · exact .inl (howned.operate hmay hanswers)
  cases op with
  | memoryState =>
      obtain ⟨rfl, htrue⟩ := hanswers
      exact .inr (huntouched.read htrue)
  | nowUnixMillis =>
      cases hanswers
      exact .inr (huntouched.other rfl rfl rfl rfl)
  | persist file =>
      cases hanswers
      obtain ⟨live, now, reason, journal, -, -, -, -, hcontrol⟩ := hmay
      apply huntouched.persist answer
      intro hstarts
      rw [hcontrol] at hstarts
      cases hstarts
  | retargetPending expected target =>
      -- The operator settles a shrink that nobody owns; a refusal leaves the reading in force.
      refine .inr ⟨?_, huntouched.idle, huntouched.quiet⟩
      intro hfresh
      change (w.fresh && VmWorld.refused answer) = true at hfresh
      rw [Bool.and_eq_true] at hfresh
      rw [hanswers.refused hfresh.2]
      exact huntouched.seen hfresh.1
  | _ => cases hmay

/-- **Every step but a widening keeps the agreement.** -/
theorem watched_keptBy : KeptBy configs index notWidening Watched where
  drift _ _ _ h hdrifts := by
    rcases h with howned | huntouched
    · exact .inl (howned.drift hdrifts)
    · refine .inr ⟨?_, huntouched.idle, huntouched.quiet⟩
      intro hfresh
      obtain ⟨live, hlive, hlast⟩ := huntouched.seen hfresh
      exact ⟨live, hlive, hlast.trans hdrifts⟩
  restart _ _ h := by
    rcases h with howned | huntouched
    · exact .inl howned.restart
    · exact .inr ⟨nofun, huntouched.idle, by rintro (h | h) <;> cases h⟩
  stale _ _ h := by
    rcases h with howned | huntouched
    · exact .inl howned.stale
    · exact .inr ⟨nofun, huntouched.idle, huntouched.quiet⟩
  next _ _ _ _ _ _ _ _ _ h hmay hallow hanswers := h.next hmay hallow hanswers
  operate _ _ _ _ _ h hmay hanswers := h.operate hmay hanswers

theorem watched_initial : Watched .initial d :=
  .inr ⟨nofun, rfl, by rintro (h | h) <;> cases h⟩

/-- An owned device is never pending without an owner. -/
theorem Owned.ownership (h : Owned w d) :
    commandOwnership w.control.intent d ≠ .unownedPending := by
  unfold commandOwnership
  split
  · next hidle =>
      rw [if_pos (h.pending hidle).converged]
      exact nofun
  · split_ifs <;> exact nofun

/-- **Commands are written ahead, all but widenings.** A command of a run has its intent saved exactly
if it is no widening. In a run without one, whatever is cut and restarted: from the first command on
the device is never found pending without an owner, and a resize is only ever sent to a device that is
converged, as it was read. -/
theorem commands_written_ahead (h : HostRun pool configs labels process) (index : Nat) :
    (∀ before after command answer,
      labels = before ++ .event ⟨.vm index (Command.op command), answer⟩ :: after →
      (WrittenAhead (HostWorld.after .initial before index) command ↔
        ∀ expected, command ≠ .widen expected)) ∧
    ((∀ expected answer, .event ⟨.vm index (.widenUsableRegion expected), answer⟩ ∉ labels) →
      ∀ before after command answer D,
        labels = before ++ .event ⟨.vm index (Command.op command), answer⟩ :: after →
        (∀ D', Follows D labels D' → commandOwnership
          (HostWorld.after .initial labels index).control.intent (D' index) ≠ .unownedPending) ∧
        ∀ request expected target authorize D', command = .resize request expected target authorize →
          Follows D before D' →
          D' index = expected ∧ expected.requestedBytes = expected.currentBytes) := by
  have hlawful := (hostRun_lawful h).1
  constructor
  · rintro before after command answer rfl
    obtain ⟨config, stage, committed, -, hmay⟩ := (lawful_append.mp hlawful).2.1.may
    exact hmay.writtenAhead_iff
  rintro hnever before after command answer D rfl
  obtain ⟨hbefore, hafter⟩ := lawful_append.mp hlawful
  obtain ⟨config, stage, committed, -, hmay⟩ := hafter.1.may
  have hanswered : Answered index notWidening
      (before ++ .event ⟨.vm index command.op, answer⟩ :: after) := by
    rintro op answer hmem expected rfl
    exact hnever expected answer hmem
  have hnot : ∀ expected, command ≠ .widen expected := by
    rintro expected rfl
    exact hnever expected answer (List.mem_append_right _ List.mem_cons_self)
  -- At the command the device is owned, and from then on it stays so.
  have howned : ∀ D₁, Follows D before D₁ →
      Owned (HostWorld.after .initial before index) (D₁ index) := by
    intro D₁ hfollows
    have hwatched := watched_keptBy.follows hbefore
      (fun op answer hmem => hanswered op answer (List.mem_append_left _ hmem)) hfollows
      watched_initial
    exact hwatched.owned hmay hnot
  constructor
  · intro D' hfollows
    obtain ⟨D₁, hfirst, hsecond⟩ := follows_append.mp hfollows
    rw [HostWorld.after_append]
    exact (owned_keptBy.follows hafter
      (fun op answer hmem => hanswered op answer (List.mem_append_right _ hmem)) hsecond
      (howned D₁ hfirst)).ownership
  · rintro request expected target authorize D₁ rfl hfollows
    obtain ⟨-, -, hlive, hfresh, hconverged, -⟩ := hmay
    exact ⟨(still_of_read (howned D₁ hfollows).seen hfresh hlive hconverged).1, hconverged⟩

/-! ## An addition that is settled at nothing

The guest plugs nothing of an addition, which is settled one poll later; the device is converged again,
and its usable region is widened. The daemon is cut right after that command, of which only the first
half took effect. -/

def settledAtNothing : List Script :=
  [exampleScript (examplePublication (6 * 2 ^ 30) exampleAdd),
    exampleScript (examplePublication (6 * 2 ^ 30) exampleAdd),
    { exampleScript (examplePublication (6 * 2 ^ 30) exampleAdd) with instant := 1000000000 }]

def convergedDevices : Devices := fun _ => exampleDevice (2 ^ 31) (2 ^ 31)

def settled : List Label × HostRuntime × Devices :=
  Script.rounds settledAtNothing exampleRuntime convergedDevices

def settledLabels : List Label := [.started] ++ settled.1

theorem settled_run :
    HostRun none [exampleConfig] settledLabels (some settled.2.1) ∧
      Follows convergedDevices settled.1 settled.2.2 :=
  Script.playable_run exampleRuntime_run (by decide +kernel)

theorem settled_written_ahead : commandOwnership
    (HostWorld.after .initial settledLabels 0).control.intent (settled.2.2 0) ≠
      .unownedPending := by
  obtain ⟨hrun, hfollows⟩ := settled_run
  obtain ⟨answer, hsplit⟩ := @command_split 0 settledLabels
    (.resize exampleAdd (exampleDevice (2 ^ 31) (2 ^ 31)) (3 * 2 ^ 30) ⟨2 ^ 31, 3 * 2 ^ 30, 0, 0⟩) 12
    (by decide +kernel)
  refine ((commands_written_ahead hrun 0).2 ?_ _ _ _ _ convergedDevices hsplit).1 _ ?_
  · intro expected answer hmem
    have hnever : settledLabels.all (fun label => !label.command.any (·.2.isWiden)) = true := by
      decide +kernel
    have hlabel := List.all_eq_true.mp hnever _ hmem
    cases hlabel
  · exact .label (fun _ => .refl _) .started hfollows

def widening : Script :=
  { exampleScript (examplePublication (6 * 2 ^ 30) exampleAdd) with
    command := .error (.commandUnknown "timed out") }

def widenedLabels : List Label := settledLabels ++
  .round :: (((HostRuntime.round settled.2.1).simulate widening.env settled.2.2).1.take 6).map .event

theorem widened_run : HostRun none [exampleConfig] widenedLabels none :=
  settled_run.1.exit ((Prog.simulate_runs _ _ _).take 6)

theorem widened_follows : ∃ D, Follows convergedDevices widenedLabels D ∧
    D 0 = exampleDevice (2 ^ 33) (2 ^ 31) := by
  refine ⟨_, follows_append.mpr ⟨settled.2.2, .label (fun _ => .refl _) .started settled_run.2,
    .label (fun _ => .refl _) .round (widening.cut_follows _ _ 6)⟩, ?_⟩
  decide +kernel

/-- **A widening is not written ahead**, and what it leaves behind has no owner. -/
theorem widening_unowned :
    (¬ ∀ (pool : Option Nat) (configs : List HostConfig) (labels before after : List Label)
        (process : Option HostRuntime) (index : Nat) (command : Command)
        (answer : VmAns command.op), HostRun pool configs labels process →
        labels = before ++ .event ⟨.vm index command.op, answer⟩ :: after →
        WrittenAhead (HostWorld.after .initial before index) command) ∧
    ¬ ∀ (pool : Option Nat) (configs : List HostConfig) (labels : List Label)
        (process : Option HostRuntime) (index : Nat) (D D' : Devices),
        HostRun pool configs labels process →
        (D index).requestedBytes = (D index).currentBytes → Follows D labels D' →
        commandOwnership (HostWorld.after .initial labels index).control.intent (D' index) ≠
          .unownedPending := by
  constructor
  · intro hclaim
    obtain ⟨answer, hsplit⟩ := @command_split 0 widenedLabels
      (.widen (exampleDevice (2 ^ 31) (2 ^ 31))) 42 (by decide +kernel)
    obtain ⟨intent, hintent, -⟩ := hclaim _ _ _ _ _ _ _ _ _ widened_run hsplit
    have hnone : (HostWorld.after .initial (widenedLabels.take 42) 0).control.intent
        = none := by decide +kernel
    rw [hnone] at hintent
    cases hintent
  · intro hclaim
    obtain ⟨D, hfollows, hdevice⟩ := widened_follows
    refine hclaim _ _ _ _ 0 _ _ widened_run rfl hfollows ?_
    rw [hdevice]
    decide +kernel

end VirtioMem.Host
