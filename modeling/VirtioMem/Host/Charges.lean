import VirtioMem.Host.Removal

/-!
# The pool over a run

What a VM takes out of the pool is what its device holds or was asked to hold, and what is recorded to
be asked of it. The controller does not see that: it goes by what it last read. `Covered` says what
that is worth. A charge that is known covers what is taken, as long as no command has gone out since the
last valid reading that asks for more than was read.

A round either takes nothing beyond what it found (`Frugal`), or it has written a growth that was afforded;
and then every charge is known and they fit into the pool together (`Solvent`). Either way what is taken
at its end is within the pool, or within what was taken before (`round_keeps_pool`). A VM that cannot be
read after a growth breaks this: it is held at the charge from before (`unread_growth_overdrawn`).
-/

namespace VirtioMem.Host

open VirtioMem.Core VirtioMem.Effect VirtioMem.Word

variable {pool : Option Nat} {configs : List HostConfig} {config : HostConfig} {index n : Nat}
  {labels : List Label} {process : Option HostRuntime} {w : VmWorld} {W : HostWorld}
  {d d' live : VirtioMemState} {D D' : Devices} {control : DurableControlState} {stage : Stage}
  {committed poolBytes bound : Nat}

/-- What a device holds, or was asked to. -/
def occupied (d : VirtioMemState) : Nat := max d.requestedBytes d.currentBytes

/-- What a VM really takes out of the pool. -/
def taken (w : VmWorld) (d : VirtioMemState) : Nat := VmController.chargeOf w.control d

def takenAll (n : Nat) (W : HostWorld) (D : Devices) : Nat :=
  ∑ index ∈ Finset.range n, taken (W index) (D index)

theorem taken_eq : taken w d = max (occupied d) w.control.intentTarget := rfl

theorem occupied_converged (h : d.requestedBytes = d.currentBytes) : occupied d = d.currentBytes := by
  rw [occupied, h, max_self]

theorem Drifts.occupied_le (h : Drifts d d') : occupied d' ≤ occupied d := by
  obtain ⟨-, -, hrequested, hcurrent⟩ := h
  unfold occupied
  omega

/-- A command asks for no more than the device held, or its target. -/
theorem Applies.occupied_le {target : Nat} {answer : Except ResizeSinkError Unit}
    (h : Applies d target answer d') : occupied d' ≤ max (occupied d) target := by
  have hasked : occupied { d with requestedBytes := target } ≤ max (occupied d) target := by
    unfold occupied
    dsimp only
    omega
  match answer with
  | .ok () =>
      cases h
      exact hasked
  | .error (.rejected _) =>
      cases h
      exact le_max_left _ _
  | .error (.commandUnknown _) =>
      rcases h with rfl | rfl
      · exact le_max_left _ _
      · exact hasked

/-! ## What a write does to the recorded target -/

/-- The target of a write, against the one before it. -/
inductive Targets (w : VmWorld) (control : DurableControlState) : Prop
  | same (h : control.intentTarget = w.control.intentTarget)
  /-- A new command, on a device that was read converged. -/
  | begun {live : VirtioMemState} (hidle : w.control.intent = none) (hlive : w.live = some live)
      (hfresh : w.fresh = true) (hconverged : live.requestedBytes = live.currentBytes)
  /-- The command that was refused. -/
  | dropped (hphase : w.phase = .rejected) (h : control.intentTarget = 0)
  /-- Nothing beyond what was read. -/
  | read {live : VirtioMemState} (hintent : w.control.intent ≠ none) (hlive : w.live = some live)
      (hfresh : w.fresh = true) (hle : control.intentTarget ≤ occupied live)
      (hconverged : live.requestedBytes = live.currentBytes →
        w.control.intentTarget ≤ live.currentBytes)

theorem intentTarget_none (h : control.intent = none) : control.intentTarget = 0 := by
  rw [DurableControlState.intentTarget, h]
  rfl

theorem intentTarget_some {intent : CommandIntent} (h : control.intent = some intent) :
    control.intentTarget = intent.targetBytes := by
  rw [DurableControlState.intentTarget, h]
  rfl

theorem Writes.targets (h : Writes config stage w control) : Targets w control := by
  cases h with
  | @resolve intent live now result journal _ _ hintent hlive hfresh hrequested hcurrent =>
      refine .read (by rw [hintent]; exact nofun) hlive hfresh (Nat.zero_le _) fun _ => ?_
      rw [intentTarget_some hintent, hcurrent]
  | latch => exact .same rfl
  | begin _ _ hlive hfresh hconverged _ hidle => exact .begun hidle hlive hfresh hconverged
  | release _ hphase => exact .dropped hphase rfl
  | unexecuted => exact .same rfl
  | @extend intent live target _ _ hintent hlive hfresh howned _ hlower =>
      refine .read (by rw [hintent]; exact nofun) hlive hfresh
        (hlower.le.trans (le_max_left _ _)) fun hconverged => ?_
      rw [intentTarget_some hintent, howned, hconverged]
  | @restore intent live _ _ hintent hlive hfresh hlower =>
      refine .read (by rw [hintent]; exact nofun) hlive hfresh (le_max_left _ _) fun hconverged => ?_
      rw [intentTarget_some hintent, ← hconverged]
      exact hlower
  | @settle intent live operationId now direction _ _ hintent hlive hfresh howned =>
      refine .read (by rw [hintent]; exact nofun) hlive hfresh (le_max_right _ _) fun hconverged => ?_
      rw [intentTarget_some hintent, howned, hconverged]

/-! ## What a charge is worth -/

/-- A widening is not left between its two requests. -/
def cleanWidening : (op : VmOp) → VmAns op → Prop
  | .widenUsableRegion _, .error (.commandUnknown _) => False
  | _, _ => True

/-- A charge covers what is taken, and the last valid reading all of it but the recorded target. -/
structure Covered (w : VmWorld) (d : VirtioMemState) : Prop where
  agrees : Agrees w d
  charged : ∀ charge, w.charge = some charge → taken w d ≤ charge
  remembered : ∀ last, w.remembered = some last → occupied d ≤ max last w.control.intentTarget
  due : w.phase = .armed ∨ w.phase = .rejected → ∀ last, w.remembered = some last →
    occupied d ≤ last
  read : w.fresh = true → ∀ live, w.live = some live → ∃ last, w.remembered = some last ∧
    occupied live ≤ last
  within : ∀ charge, w.charge = some charge → ∃ last, w.remembered = some last ∧ last ≤ charge

theorem covered_restart : Covered w.restart d :=
  ⟨nofun, nofun, nofun, nofun, nofun, nofun⟩

theorem Covered.stale (h : Covered w d) : Covered w.stale d :=
  ⟨nofun, h.charged, h.remembered, h.due, nofun, h.within⟩

theorem Covered.drift (h : Covered w d) (hdrifts : Drifts d d') : Covered w d' where
  agrees := h.agrees.drift hdrifts
  charged charge hcharge := by
    have hle := h.charged charge hcharge
    rw [taken_eq] at hle ⊢
    exact (max_le_max_right _ hdrifts.occupied_le).trans hle
  remembered last hlast := hdrifts.occupied_le.trans (h.remembered last hlast)
  due hphase last hlast := hdrifts.occupied_le.trans (h.due hphase last hlast)
  read := h.read
  within := h.within

/-- A reading that fails leaves the VM at its last charge, which must cover what is recorded. -/
theorem Covered.readDevice (h : Covered w d) (hidle : w.phase = .idle)
    {answer : Except String VirtioMemState} (hanswer : ∀ state, answer = .ok state → state = d)
    (hknown : VmWorld.accepted answer = none → ∀ last, w.remembered = some last →
      w.control.intentTarget ≤ last) : Covered (w.read answer) d := by
  have hdue : ∀ {P : Prop}, w.phase = .armed ∨ w.phase = .rejected → P := by
    intro P hphase
    rw [hidle] at hphase
    rcases hphase with h | h <;> cases h
  cases haccepted : VmWorld.accepted answer with
  | none =>
      have hread : w.read answer = { w with charge := w.remembered } := by
        unfold VmWorld.read
        rw [haccepted]
      rw [hread]
      refine ⟨h.agrees.other rfl rfl, ?_, h.remembered, fun hphase => hdue hphase, h.read,
        fun last hlast => ⟨last, hlast, le_rfl⟩⟩
      intro last hlast
      have htarget := hknown haccepted last hlast
      have hle := h.remembered last hlast
      rw [max_eq_left htarget] at hle
      exact max_le hle htarget
  | some state =>
      have hok : answer = .ok state := by
        unfold VmWorld.accepted at haccepted
        split at haccepted
        · cases haccepted
        · split_ifs at haccepted
          cases haccepted
          rfl
      cases hanswer state hok
      have hread : w.read answer = { w with
          live := some d
          fresh := true
          remembered := some (taken w d)
          charge := some (taken w d) } := by
        unfold VmWorld.read
        rw [haccepted]
        rfl
      rw [hread]
      refine ⟨fun _ => ⟨d, rfl, .refl _⟩, ?_, ?_, fun hphase => hdue hphase, ?_, ?_⟩
      · -- The new charge is what is taken now.
        rintro _ ⟨⟩
        exact le_rfl
      · rintro _ ⟨⟩
        exact (le_max_left _ _).trans (le_max_left _ _)
      · rintro _ _ ⟨⟩
        exact ⟨_, rfl, le_max_left _ _⟩
      · rintro _ ⟨⟩
        exact ⟨_, rfl, le_rfl⟩

/-- A write keeps what is taken within the charge, which it raises by what it begins. -/
theorem Covered.store (h : Covered w d) {file : CheckpointFile}
    (hwrites : Writes config stage w file.control) :
    (∀ charge, (w.store file).charge = some charge →
      max (occupied d) file.control.intentTarget ≤ charge) ∧
    (∀ last, w.remembered = some last → occupied d ≤ max last file.control.intentTarget) ∧
    (w.control.intent = none → ∀ last, w.remembered = some last → occupied d ≤ last) := by
  have hidle : w.control.intent = none → ∀ last, w.remembered = some last → occupied d ≤ last := by
    intro hidle last hlast
    have hle := h.remembered last hlast
    rwa [intentTarget_none hidle, max_eq_left (Nat.zero_le _)] at hle
  -- What was read in this round bounds the device.
  have hread : ∀ live, w.live = some live → w.fresh = true → ∀ last, w.remembered = some last →
      occupied d ≤ last ∧ occupied live ≤ last := by
    intro live hlive hfresh last hlast
    obtain ⟨_, hsame, hle⟩ := h.read hfresh live hlive
    rw [hlast] at hsame
    cases hsame
    obtain ⟨_, hother, hdrifts⟩ := h.agrees hfresh
    rw [hlive] at hother
    cases hother
    exact ⟨hdrifts.occupied_le.trans hle, hle⟩
  have hcharge : ∀ charge, w.charge = some charge → occupied d ≤ charge ∧
      w.control.intentTarget ≤ charge := fun charge hcharge => max_le_iff.mp (h.charged charge hcharge)
  have hstored : ∀ charge, (w.store file).charge = some charge → ∃ before, w.charge = some before ∧
      before ≤ charge ∧ (w.control.intent = none → file.control.intentTarget ≤ charge) := by
    intro charge hstored
    by_cases hnone : w.control.intent = none
    · simp only [VmWorld.store, hnone, if_true] at hstored
      obtain ⟨before, hbefore, rfl⟩ := Option.map_eq_some_iff.mp hstored
      exact ⟨before, hbefore, le_max_left _ _, fun _ => le_max_right _ _⟩
    · simp only [VmWorld.store, hnone, if_false] at hstored
      exact ⟨charge, hstored, le_rfl, fun h => absurd h hnone⟩
  refine ⟨fun charge hafter => ?_, fun last hlast => ?_, hidle⟩
  · obtain ⟨before, hbefore, hle, htarget⟩ := hstored charge hafter
    obtain ⟨hoccupied, hrecorded⟩ := hcharge before hbefore
    refine max_le (hoccupied.trans hle) ?_
    cases hwrites.targets with
    | same hsame => exact hsame.trans_le (hrecorded.trans hle)
    | begun hnone => exact htarget hnone
    | dropped _ hzero => exact hzero.trans_le (Nat.zero_le _)
    | read _ hlive hfresh hread' =>
        obtain ⟨last, hlast, hlastle⟩ := h.within before hbefore
        exact (hread'.trans ((hread _ hlive hfresh last hlast).2.trans hlastle)).trans hle
  · cases hwrites.targets with
    | same hsame => exact hsame ▸ h.remembered last hlast
    | begun hnone => exact (hidle hnone last hlast).trans (le_max_left _ _)
    | dropped hphase => exact (h.due (.inr hphase) last hlast).trans (le_max_left _ _)
    | read _ hlive hfresh => exact (hread _ hlive hfresh last hlast).1.trans (le_max_left _ _)

/-- A write is stored, which arms a command only where there was none, or fails without a trace. -/
theorem VmWorld.persist_cases (w : VmWorld) (file : CheckpointFile) (saved : Saved) :
    (∃ phase, (phase = .armed ∨ phase = .rejected → w.control.intent = none) ∧
      w.persist file saved = { w.store file with phase := phase }) ∨
      w.persist file saved = { w with phase := .ended } := by
  match saved with
  | .written =>
      refine .inl ⟨_, fun hphase => ?_, rfl⟩
      split at hphase
      · next hstarts => exact Option.isNone_iff_eq_none.mp (Bool.and_eq_true _ _ ▸ hstarts).1
      · rcases hphase with h | h <;> cases h
  | .failed _ true =>
      refine .inl ⟨.ended, fun hphase => ?_, rfl⟩
      rcases hphase with h | h <;> cases h
  | .failed _ false => exact .inr rfl

theorem Covered.persist (h : Covered w d) {file : CheckpointFile} (saved : Saved)
    (hwrites : Writes config stage w file.control) : Covered (w.persist file saved) d := by
  obtain ⟨hcharged, hremembered, hdue⟩ := h.store hwrites
  have hstored : ∀ phase, (phase = .armed ∨ phase = .rejected → w.control.intent = none) →
      Covered { w.store file with phase := phase } d := by
    intro phase hphase
    refine ⟨h.agrees.other rfl rfl, hcharged, hremembered, fun h => hdue (hphase h), h.read, ?_⟩
    intro charge hcharge
    by_cases hnone : w.control.intent = none
    · simp only [VmWorld.store, hnone, if_true] at hcharge
      obtain ⟨before, hbefore, rfl⟩ := Option.map_eq_some_iff.mp hcharge
      obtain ⟨last, hlast, hle⟩ := h.within before hbefore
      exact ⟨last, hlast, le_max_of_le_left hle⟩
    · simp only [VmWorld.store, hnone, if_false] at hcharge
      exact h.within charge hcharge
  rcases w.persist_cases file saved with ⟨phase, hphase, hpersist⟩ | hpersist
  · rw [hpersist]
    exact hstored phase hphase
  · rw [hpersist]
    refine ⟨h.agrees.other rfl rfl, h.charged, h.remembered, fun hphase => ?_, h.read, h.within⟩
    rcases hphase with h | h <;> cases h

/-- A command asks for what is recorded. -/
theorem Covered.command (h : Covered w d) {answer : Except ResizeSinkError Unit} {target : Nat}
    (happlies : Applies d target answer d') (htarget : w.control.intentTarget = target)
    {phase : Phase} (hphase : phase = .armed ∨ phase = .rejected →
      VmWorld.refused answer = true ∧ (w.phase = .armed ∨ w.phase = .rejected)) :
    Covered { w.command answer with phase := phase } d' := by
  have hoccupied := happlies.occupied_le
  refine ⟨h.agrees.command happlies rfl rfl, ?_, ?_, ?_, ?_, h.within⟩
  · intro charge hcharge
    refine le_trans ?_ (h.charged charge hcharge)
    rw [taken_eq, taken_eq]
    refine max_le (hoccupied.trans_eq ?_) (le_max_right _ _)
    rw [htarget]
  · intro last hlast
    refine hoccupied.trans (max_le (h.remembered last hlast) ?_)
    rw [← htarget]
    exact le_max_right _ _
  · intro hdue last hlast
    obtain ⟨hrefused, hbefore⟩ := hphase hdue
    rw [happlies.refused hrefused]
    exact h.due hbefore last hlast
  · intro hfresh
    exact h.read (Bool.and_eq_true _ _ ▸ hfresh).1

/-- A widening that is clean leaves a converged device as it is. -/
theorem widen_clean {expected : VirtioMemState} {answer : Except ResizeSinkError Unit}
    (hagrees : Agrees w d) (hmay : w.May config stage committed (.widenUsableRegion expected))
    (hclean : cleanWidening (.widenUsableRegion expected) answer)
    (hwidens : Widens d expected answer d') : d' = d ∧ w.widen answer = w := by
  obtain ⟨-, hlive, hfresh, hconverged, -⟩ := hmay
  obtain ⟨rfl, -⟩ := still_of_read hagrees hfresh hlive hconverged
  match answer with
  | .ok () =>
      cases hwidens
      exact ⟨rfl, rfl⟩
  | .error (.rejected _) =>
      cases hwidens
      exact ⟨rfl, rfl⟩
  | .error (.commandUnknown _) => exact hclean.elim

/-- What is recorded was charged when the VM could last be read. -/
def KnownIfUnread (w : VmWorld) : (op : VmOp) → VmAns op → Prop
  | .memoryState, answer => VmWorld.accepted answer = none → ∀ last, w.remembered = some last →
      w.control.intentTarget ≤ last
  | _, _ => True

/-- **Every step of a daemon keeps the charges good.** -/
theorem Covered.next {op : VmOp} {answer : VmAns op} (h : Covered w d)
    (hmay : w.May config stage committed op) (hknown : KnownIfUnread w op answer)
    (hclean : cleanWidening op answer) (hanswers : Answers d op answer d') :
    Covered (w.next op answer) d' := by
  cases op with
  | memoryState =>
      obtain ⟨rfl, htrue⟩ := hanswers
      exact h.readDevice hmay.2 htrue hknown
  | persist file =>
      cases hanswers
      exact h.persist answer hmay
  | requestResize request expected target authorize =>
      obtain ⟨harmed, -, -, -, -, -, ⟨intent, hintent, htarget⟩, -⟩ := hmay
      refine h.command hanswers ((intentTarget_some hintent).trans htarget) fun hphase => ?_
      split at hphase
      · next hrefused => exact ⟨hrefused, .inl harmed⟩
      · rcases hphase with h | h <;> cases h
  | retargetPending expected target =>
      obtain ⟨hidle, -, -, -, intent, hintent, htarget, -⟩ := hmay
      refine h.command hanswers ((intentTarget_some hintent).trans htarget) fun hphase => ?_
      rw [hidle] at hphase
      rcases hphase with h | h <;> cases h
  | widenUsableRegion expected =>
      obtain ⟨rfl, hsame⟩ := widen_clean h.agrees hmay hclean hanswers
      show Covered (w.widen answer) d'
      rw [hsame]
      exact h
  | readGuest =>
      cases hanswers
      exact ⟨h.agrees.other rfl rfl, h.charged, h.remembered, h.due, h.read, h.within⟩
  | _ =>
      cases hanswers
      exact h

/-! ## A round that takes nothing more -/

/-- What is taken, and what was read of it in this round, is within a bound. -/
structure Bounded (bound : Nat) (w : VmWorld) (d : VirtioMemState) : Prop where
  taken : taken w d ≤ bound
  read : w.fresh = true → ∀ live, w.live = some live → occupied live ≤ bound

/-- Besides, a VM that was read converged is charged what it holds. -/
structure Frugal (bound : Nat) (w : VmWorld) (d : VirtioMemState) : Prop extends Bounded bound w d where
  charge : w.fresh = true → ∀ live, w.live = some live → live.requestedBytes = live.currentBytes →
    w.remembered = some (max live.currentBytes w.control.intentTarget) ∧ w.charge = w.remembered
  due : w.fresh = true → ∀ live, w.live = some live → live.requestedBytes = live.currentBytes →
    w.phase = .armed ∨ w.phase = .rejected → w.control.intentTarget ≤ live.currentBytes

theorem frugal_stale : Frugal (taken w d) w.stale d :=
  ⟨⟨le_rfl, nofun⟩, nofun, nofun⟩

theorem Bounded.drift (h : Bounded bound w d) (hdrifts : Drifts d d') : Bounded bound w d' :=
  ⟨(max_le_max_right _ hdrifts.occupied_le).trans h.taken, h.read⟩

theorem Frugal.drift (h : Frugal bound w d) (hdrifts : Drifts d d') : Frugal bound w d' :=
  ⟨h.toBounded.drift hdrifts, h.charge, h.due⟩

theorem Bounded.occupied_le (h : Bounded bound w d) : occupied d ≤ bound :=
  (le_max_left _ _).trans h.taken

/-- A reading finds no more than what is taken. -/
theorem Frugal.readDevice (h : Frugal bound w d) (hidle : w.phase = .idle)
    {answer : Except String VirtioMemState} (hanswer : ∀ state, answer = .ok state → state = d) :
    Frugal bound (w.read answer) d := by
  have hdue : ∀ {P : Prop}, w.phase = .armed ∨ w.phase = .rejected → P := by
    intro P hphase
    rw [hidle] at hphase
    rcases hphase with h | h <;> cases h
  rcases w.read_cases answer with hread | ⟨state, hok, -, hread⟩
  · rw [hread]
    exact ⟨⟨h.taken, h.read⟩, fun hfresh live hlive hconverged =>
      ⟨(h.charge hfresh live hlive hconverged).1, rfl⟩, fun _ _ _ _ hphase => hdue hphase⟩
  · cases hanswer state hok
    rw [hread]
    refine ⟨⟨h.taken, ?_⟩, ?_, fun _ _ _ _ hphase => hdue hphase⟩
    · rintro _ _ ⟨⟩
      exact h.occupied_le
    · rintro _ _ ⟨⟩ hconverged
      refine ⟨?_, rfl⟩
      rw [VmController.chargeOf, hconverged, max_self]
      rfl

/-- Whether a write begins something beyond the VM's charge. -/
def Raises (w : VmWorld) (file : CheckpointFile) : Prop :=
  w.control.intent = none ∧ w.charge.getD 0 < file.control.intentTarget

/-- A write that raises no charge takes no more than the VM was read with. -/
theorem Frugal.persist (h : Frugal bound w d) {file : CheckpointFile} (saved : Saved)
    (hwrites : Writes config stage w file.control) (hraises : ¬Raises w file) :
    Frugal bound (w.persist file saved) d := by
  have hnone : w.control.intent = none → file.control.intentTarget ≤ w.charge.getD 0 := by
    intro hnone
    by_contra hlt
    exact hraises ⟨hnone, not_le.mp hlt⟩
  have hcharge : (w.store file).charge = w.charge := by
    by_cases hidle : w.control.intent = none
    · have hle := hnone hidle
      simp only [VmWorld.store, hidle, if_true]
      cases hcharge : w.charge with
      | none => rfl
      | some charge =>
          rw [hcharge, Option.getD_some] at hle
          rw [Option.map_some, max_eq_left hle]
    · simp only [VmWorld.store, hidle, if_false]
  -- A command on a converged device is within what it holds.
  have hbegun : ∀ live, w.control.intent = none → w.live = some live → w.fresh = true →
      live.requestedBytes = live.currentBytes → file.control.intentTarget ≤ live.currentBytes := by
    intro live hidle hlive hfresh hconverged
    obtain ⟨hremembered, hsame⟩ := h.charge hfresh live hlive hconverged
    have hle := hnone hidle
    rw [hsame, hremembered, Option.getD_some, intentTarget_none hidle, max_eq_left (Nat.zero_le _)]
      at hle
    exact hle
  have htarget : file.control.intentTarget ≤ bound := by
    cases hwrites.targets with
    | same hsame => exact hsame.trans_le ((le_max_right _ _).trans h.taken)
    | begun hidle hlive hfresh hconverged =>
        exact (hbegun _ hidle hlive hfresh hconverged).trans
          ((le_max_right _ _).trans (h.read hfresh _ hlive))
    | dropped _ hzero => exact hzero.trans_le (Nat.zero_le _)
    | read _ hlive hfresh hle => exact hle.trans (h.read hfresh _ hlive)
  have hheld : w.fresh = true → ∀ live, w.live = some live →
      live.requestedBytes = live.currentBytes →
      max live.currentBytes file.control.intentTarget =
        max live.currentBytes w.control.intentTarget := by
    intro hfresh live hlive hconverged
    have hsome : ∀ other, w.live = some other → other = live := fun other hother =>
      Option.some.inj (hother.symm.trans hlive)
    cases hwrites.targets with
    | same hsame => rw [hsame]
    | begun hidle hother =>
        rw [max_eq_left (hbegun live hidle hlive hfresh hconverged), intentTarget_none hidle,
          max_eq_left (Nat.zero_le _)]
    | dropped hphase hzero =>
        rw [hzero, max_eq_left (Nat.zero_le _),
          max_eq_left (h.due hfresh live hlive hconverged (.inr hphase))]
    | read _ hother _ hle hbefore =>
        cases hsome _ hother
        rw [occupied_converged hconverged] at hle
        rw [max_eq_left hle, max_eq_left (hbefore hconverged)]
  have hstored : ∀ phase, (phase = .armed ∨ phase = .rejected → w.control.intent = none) →
      Frugal bound { w.store file with phase := phase } d := by
    intro phase hphase
    refine ⟨⟨max_le h.occupied_le htarget, h.read⟩, ?_, ?_⟩
    · intro hfresh live hlive hconverged
      obtain ⟨hremembered, hsame⟩ := h.charge hfresh live hlive hconverged
      exact ⟨hremembered.trans (congrArg some (hheld hfresh live hlive hconverged).symm),
        hcharge.trans hsame⟩
    · intro hfresh live hlive hconverged harmed
      exact hbegun live (hphase harmed) hlive hfresh hconverged
  rcases w.persist_cases file saved with ⟨phase, hphase, hpersist⟩ | hpersist
  · rw [hpersist]
    exact hstored phase hphase
  · rw [hpersist]
    refine ⟨⟨h.taken, h.read⟩, h.charge, fun _ _ _ _ hphase => ?_⟩
    rcases hphase with h | h <;> cases h

/-- A command takes nothing that was not recorded. -/
theorem Frugal.command (h : Frugal bound w d) {answer : Except ResizeSinkError Unit} {target : Nat}
    (happlies : Applies d target answer d') (htarget : w.control.intentTarget = target)
    {phase : Phase} (hphase : phase = .armed ∨ phase = .rejected →
      w.phase = .armed ∨ w.phase = .rejected) :
    Frugal bound { w.command answer with phase := phase } d' := by
  refine ⟨⟨?_, ?_⟩, ?_, ?_⟩
  · refine le_trans ?_ h.taken
    rw [taken_eq, taken_eq]
    refine max_le (happlies.occupied_le.trans_eq ?_) (le_max_right _ _)
    rw [htarget]
  · exact fun hfresh => h.read (Bool.and_eq_true _ _ ▸ hfresh).1
  · exact fun hfresh => h.charge (Bool.and_eq_true _ _ ▸ hfresh).1
  · exact fun hfresh live hlive hconverged hdue =>
      h.due (Bool.and_eq_true _ _ ▸ hfresh).1 live hlive hconverged (hphase hdue)

theorem Frugal.next {op : VmOp} {answer : VmAns op} (h : Frugal bound w d) (hagrees : Agrees w d)
    (hmay : w.May config stage committed op) (hclean : cleanWidening op answer)
    (hraises : ∀ file, op = .persist file → ¬Raises w file) (hanswers : Answers d op answer d') :
    Frugal bound (w.next op answer) d' := by
  cases op with
  | memoryState =>
      obtain ⟨rfl, htrue⟩ := hanswers
      exact h.readDevice hmay.2 htrue
  | persist file =>
      cases hanswers
      exact h.persist answer hmay (hraises file rfl)
  | requestResize request expected target authorize =>
      obtain ⟨harmed, -, -, -, -, -, ⟨intent, hintent, htarget⟩, -⟩ := hmay
      exact h.command hanswers ((intentTarget_some hintent).trans htarget) fun _ => .inl harmed
  | retargetPending expected target =>
      obtain ⟨-, -, -, -, intent, hintent, htarget, -⟩ := hmay
      exact h.command hanswers ((intentTarget_some hintent).trans htarget) fun hphase => hphase
  | widenUsableRegion expected =>
      obtain ⟨rfl, hsame⟩ := widen_clean hagrees hmay hclean hanswers
      show Frugal bound (w.widen answer) d'
      rw [hsame]
      exact h
  | readGuest =>
      cases hanswers
      exact ⟨⟨h.taken, h.read⟩, h.charge, h.due⟩
  | _ =>
      cases hanswers
      exact h

/-! ## The charges of a round -/

/-- A step that begins nothing beyond the charge keeps it known, and raises it not. -/
theorem Covered.charge_next {op : VmOp} {answer : VmAns op} (h : Covered w d)
    (hraises : ∀ file, op = .persist file → ¬Raises w file) (hanswers : Answers d op answer d')
    {charge : Nat} (hcharge : w.charge = some charge) :
    ∃ after, (w.next op answer).charge = some after ∧ after ≤ charge := by
  cases op with
  | memoryState =>
      obtain ⟨rfl, htrue⟩ := hanswers
      show ∃ after, (w.read answer).charge = some after ∧ after ≤ charge
      rcases w.read_cases answer with hread | ⟨state, hok, -, hread⟩
      · rw [hread]
        exact h.within charge hcharge
      · cases htrue state hok
        rw [hread]
        exact ⟨_, rfl, h.charged charge hcharge⟩
  | persist file =>
      show ∃ after, (w.persist file answer).charge = some after ∧ after ≤ charge
      rcases w.persist_cases file answer with ⟨phase, -, hpersist⟩ | hpersist
      · rw [hpersist]
        -- Over a known intent the target counts already.
        by_cases hnone : w.control.intent = none
        · have hle : file.control.intentTarget ≤ charge := by
            have hnot : ¬w.charge.getD 0 < file.control.intentTarget :=
              fun hlt => hraises file rfl ⟨hnone, hlt⟩
            rwa [hcharge, Option.getD_some, not_lt] at hnot
          simp only [VmWorld.store, hnone, if_true, hcharge, Option.map_some]
          exact ⟨_, rfl, max_le le_rfl hle⟩
        · simp only [VmWorld.store, hnone, if_false]
          exact ⟨charge, hcharge, le_rfl⟩
      · rw [hpersist]
        exact ⟨charge, hcharge, le_rfl⟩
  | widenUsableRegion expected =>
      show ∃ after, (w.widen answer).charge = some after ∧ after ≤ charge
      unfold VmWorld.widen
      split <;> exact ⟨charge, hcharge, le_rfl⟩
  | _ => exact ⟨charge, hcharge, le_rfl⟩

/-- Either nothing more is taken than `bound` says, or what is charged fits into the pool. -/
def Solvent (poolBytes n : Nat) (bound : Nat → Nat) (W : HostWorld) (D : Devices) : Prop :=
  (∀ index < n, Frugal (bound index) (W index) (D index)) ∨
    (∀ index < n, (W index).charge.isSome) ∧ charged n W ≤ poolBytes

theorem Solvent.taken_le {bound : Nat → Nat} (h : Solvent poolBytes n bound W D)
    (hcovered : ∀ index, Covered (W index) (D index)) :
    takenAll n W D ≤ max poolBytes (∑ index ∈ Finset.range n, bound index) := by
  rcases h with hfrugal | ⟨hknown, hfits⟩
  · refine le_max_of_le_right (Finset.sum_le_sum fun index hindex => ?_)
    exact (hfrugal index (Finset.mem_range.mp hindex)).taken
  · refine le_max_of_le_left (le_trans (Finset.sum_le_sum fun index hindex => ?_) hfits)
    obtain ⟨charge, hcharge⟩ := Option.isSome_iff_exists.mp (hknown index (Finset.mem_range.mp hindex))
    rw [hcharge]
    exact (hcovered index).charged charge hcharge

theorem charged_le {W' : HostWorld}
    (h : ∀ index < n, (W' index).charge.getD 0 ≤ (W index).charge.getD 0) :
    charged n W' ≤ charged n W :=
  Finset.sum_le_sum fun index hindex => h index (Finset.mem_range.mp hindex)

/-- What begins is charged at most what it was afforded at. -/
theorem VmWorld.charge_persist (w : VmWorld) (file : CheckpointFile) (saved : Saved)
    (hsome : w.charge.isSome) : (w.persist file saved).charge.isSome ∧
      (w.persist file saved).charge.getD 0 ≤ (w.store file).charge.getD 0 := by
  obtain ⟨charge, hcharge⟩ := Option.isSome_iff_exists.mp hsome
  rcases w.persist_cases file saved with ⟨phase, -, hpersist⟩ | hpersist
  · rw [hpersist]
    refine ⟨?_, le_rfl⟩
    show (if w.control.intent = none then _ else w.charge).isSome
    rw [hcharge]
    split <;> rfl
  · rw [hpersist]
    refine ⟨hsome, ?_⟩
    show w.charge.getD 0 ≤ (if w.control.intent = none then _ else w.charge).getD 0
    rw [hcharge]
    split
    · exact le_max_left _ _
    · exact le_rfl

/-- **Every step of a round keeps it solvent.** -/
theorem Solvent.next {bound : Nat → Nat} {op : VmOp} {answer : VmAns op}
    (h : Solvent poolBytes configs.length bound W D)
    (hcovered : ∀ index, Covered (W index) (D index))
    (hallowed : Allowed (some poolBytes) configs W (.event ⟨.vm index op, answer⟩))
    (hclean : cleanWidening op answer) (hanswers : Answers (D index) op answer d') :
    Solvent poolBytes configs.length bound
      (Function.update W index ((W index).next op answer)) (Function.update D index d') := by
  obtain ⟨committed, ⟨config, stage, hconfig, hmay⟩, hafford⟩ := hallowed
  -- A raised target is the one step that needs the pool, and was authorised against every charge.
  by_cases hraises : ∃ file, op = .persist file ∧ Raises (W index) file
  · obtain ⟨file, rfl, hidle, hlt⟩ := hraises
    obtain ⟨hknown, hfits⟩ := hafford poolBytes rfl hidle hlt
    have hindex := (List.getElem?_eq_some_iff.mp hconfig).1
    obtain ⟨hsome, hle⟩ := (W index).charge_persist file answer (hknown index hindex)
    refine .inr ⟨fun other hother => ?_, le_trans (charged_le fun other _ => ?_) hfits⟩
    · by_cases hne : other = index
      · subst hne
        rw [Function.update_self]
        exact hsome
      · rw [Function.update_of_ne hne]
        exact hknown other hother
    · by_cases hne : other = index
      · subst hne
        rw [Function.update_self, Function.update_self]
        exact hle
      · rw [Function.update_of_ne hne, Function.update_of_ne hne]
  have hnot : ∀ file, op = .persist file → ¬Raises (W index) file :=
    fun file hop hraise => hraises ⟨file, hop, hraise⟩
  -- Any other step raises no charge.
  rcases h with hfrugal | ⟨hknown, hfits⟩
  · refine .inl fun other hother => ?_
    by_cases hne : other = index
    · subst hne
      rw [Function.update_self, Function.update_self]
      exact (hfrugal other hother).next (hcovered other).agrees hmay hclean hnot hanswers
    · rw [Function.update_of_ne hne, Function.update_of_ne hne]
      exact hfrugal other hother
  · have hcharges : ∀ other < configs.length, ∃ charge after, (W other).charge = some charge ∧
        (Function.update W index ((W index).next op answer) other).charge = some after ∧
          after ≤ charge := by
      intro other hother
      obtain ⟨charge, hcharge⟩ := Option.isSome_iff_exists.mp (hknown other hother)
      refine ⟨charge, ?_⟩
      by_cases hne : other = index
      · subst hne
        rw [Function.update_self]
        obtain ⟨after, hafter, hle⟩ := (hcovered other).charge_next hnot hanswers hcharge
        exact ⟨after, hcharge, hafter, hle⟩
      · rw [Function.update_of_ne hne]
        exact ⟨charge, hcharge, hcharge, le_rfl⟩
    refine .inr ⟨fun other hother => ?_, le_trans (charged_le fun other hother => ?_) hfits⟩
    · obtain ⟨_, _, -, hafter, -⟩ := hcharges other hother
      rw [hafter]
      rfl
    · obtain ⟨_, _, hcharge, hafter, hle⟩ := hcharges other hother
      rw [hafter, hcharge]
      exact hle

theorem Solvent.drift {bound : Nat → Nat} (h : Solvent poolBytes n bound W D)
    (hdrifts : ∀ index, Drifts (D index) (D' index)) : Solvent poolBytes n bound W D' :=
  h.imp_left fun hfrugal index hindex => (hfrugal index hindex).drift (hdrifts index)

/-! ## Rounds and runs -/

/-- The VM whose device could not be read. -/
def Label.unread : Label → Option Nat
  | .event ⟨.vm index .memoryState, answer⟩ =>
    if VmWorld.accepted answer = none then some index else none
  | _ => none

/-- Where a VM cannot be read, the charge of its last valid reading covers what is recorded for it. -/
def KnownAt (W : HostWorld) (label : Label) : Prop :=
  ∀ index ∈ label.unread, ∀ last ∈ (W index).remembered, (W index).control.intentTarget ≤ last

/-- **No growth goes unread**: a VM is read after a command that asks for more, before it can be read no
more. -/
def ReadsKnown : HostWorld → List Label → Prop
  | _, [] => True
  | W, label :: labels => KnownAt W label ∧ ReadsKnown (HostWorld.step W label) labels

instance (W : HostWorld) (label : Label) : Decidable (KnownAt W label) :=
  inferInstanceAs (Decidable (∀ index ∈ label.unread, _))

instance decidableReadsKnown : (W : HostWorld) → (labels : List Label) →
    Decidable (ReadsKnown W labels)
  | _, [] => .isTrue trivial
  | W, label :: labels =>
    haveI := decidableReadsKnown (HostWorld.step W label) labels
    inferInstanceAs (Decidable (KnownAt W label ∧ ReadsKnown _ labels))

theorem readsKnown_append {first second : List Label} :
    ReadsKnown W (first ++ second) ↔ ReadsKnown W first ∧ ReadsKnown (HostWorld.after W first) second := by
  induction first generalizing W with
  | nil => simp [ReadsKnown, HostWorld.after]
  | cons label first ih => simp [ReadsKnown, HostWorld.after, ih, and_assoc]

/-- Every widening of the run is clean. -/
def CleanWidenings (labels : List Label) : Prop := ∀ index, Answered index cleanWidening labels

theorem cleanWidenings_append {first second : List Label} :
    CleanWidenings (first ++ second) ↔ CleanWidenings first ∧ CleanWidenings second := by
  simp only [CleanWidenings, Answered, List.mem_append, or_imp, forall_and]

/-- The steps of a round, with the devices. -/
theorem Solvent.round {bound : Nat → Nat} {events : List (Event RuntimeAns)}
    (h : Solvent poolBytes configs.length bound W D)
    (hcovered : ∀ index, Covered (W index) (D index))
    (hlawful : Lawful (some poolBytes) configs W (events.map .event))
    (hfollows : Follows D (events.map .event) D') (hknown : ReadsKnown W (events.map .event))
    (hclean : CleanWidenings (events.map .event)) :
    (∀ index, Covered (HostWorld.after W (events.map .event) index) (D' index)) ∧
      Solvent poolBytes configs.length bound (HostWorld.after W (events.map .event)) D' := by
  -- Device and world take every step together.
  induction events generalizing W D with
  | nil =>
      cases hfollows with
      | done hdrifts => exact ⟨fun index => (hcovered index).drift (hdrifts index), h.drift hdrifts⟩
  | cons event events ih =>
      cases hfollows with
      | @label _ D₁ D₂ _ _ _ hdrifts hobeys hrest =>
      have hcovered₁ : ∀ index, Covered (W index) (D₁ index) :=
        fun index => (hcovered index).drift (hdrifts index)
      have h₁ := h.drift hdrifts
      have hcleanRest : CleanWidenings (events.map .event) := fun index op answer hmem =>
        hclean index op answer (List.mem_cons_of_mem _ hmem)
      obtain ⟨op, answer⟩ := event
      cases op with
      | stopRequested =>
          cases hobeys
          exact ih h₁ hcovered₁ hlawful.2 hrest hknown.2 hcleanRest
      | vm index op =>
          cases hobeys with
          | event hanswers =>
          have hop := hclean index op answer List.mem_cons_self
          obtain ⟨config, stage, committed, -, hmay⟩ := hlawful.1.may
          have hread : KnownIfUnread (W index) op answer := by
            cases op with
            | memoryState =>
                intro haccepted last hlast
                exact hknown.1 index (if_pos haccepted) last hlast
            | _ => trivial
          refine ih (h₁.next hcovered₁ hlawful.1 hop hanswers) (fun other => ?_) hlawful.2 hrest
            hknown.2 hcleanRest
          show Covered (Function.update W index ((W index).next op answer) other) _
          by_cases hne : other = index
          · subst hne
            rw [Function.update_self, Function.update_self]
            exact (hcovered₁ other).next hmay hread hop hanswers
          · rw [Function.update_of_ne hne, Function.update_of_ne hne]
            exact hcovered₁ other

theorem solvent_stale : Solvent poolBytes n (fun index => taken (W index) (D index))
    (HostWorld.step W .round) D :=
  .inl fun _ _ => frugal_stale

/-- A round from charges that are good. -/
theorem round_solvent {s : HostRuntime} {events : List (Event RuntimeAns)}
    {result : Option (Except HostRuntimeError Step × HostRuntime)}
    (h : HostRun (some poolBytes) configs labels (some s))
    (hruns : (HostRuntime.round s).Runs events result)
    (hcovered : ∀ index, Covered (HostWorld.after .initial labels index) (D index))
    (hfollows : Follows D (.round :: events.map .event) D')
    (hknown : ReadsKnown .initial (labels ++ .round :: events.map .event))
    (hclean : CleanWidenings (labels ++ .round :: events.map .event)) :
    (∀ index, Covered (HostWorld.after .initial (labels ++ .round :: events.map .event) index)
        (D' index)) ∧
      takenAll configs.length (HostWorld.after .initial (labels ++ .round :: events.map .event)) D' ≤
        max poolBytes (takenAll configs.length (HostWorld.after .initial labels) D) := by
  rw [HostWorld.after_append]
  have hlawful := (round_lawful ((hostRun_lawful h).2 s rfl) hruns).1.2
  have hlast := (readsKnown_append.mp hknown).2
  have hcleanRound := (cleanWidenings_append.mp hclean).2
  generalize HostWorld.after .initial labels = W at hcovered hlawful hlast ⊢
  cases hfollows with
  | @label _ D₁ D₂ _ _ _ hdrifts hobeys hrest =>
  cases hobeys
  have hstale : ∀ index, Covered (HostWorld.step W .round index) (D₁ index) :=
    fun index => ((hcovered index).drift (hdrifts index)).stale
  have hsolvent : Solvent poolBytes configs.length (fun index => taken (W index) (D index))
      (HostWorld.step W .round) D₁ := solvent_stale.drift hdrifts
  obtain ⟨hafter, hsolvent⟩ := hsolvent.round hstale hlawful hrest hlast.2
    fun index op answer hmem => hcleanRound index op answer (List.mem_cons_of_mem _ hmem)
  exact ⟨hafter, hsolvent.taken_le hafter⟩

/-- The charges of a running daemon are good. -/
theorem hostRun_covered (h : HostRun (some poolBytes) configs labels process)
    (hfollows : Follows D labels D') (hknown : ReadsKnown .initial labels)
    (hclean : CleanWidenings labels) (hrunning : process.isSome) (index : Nat) :
    Covered (HostWorld.after .initial labels index) (D' index) := by
  induction h generalizing D' index with
  | fresh => cases hrunning
  | start =>
      rw [HostWorld.after_append]
      exact covered_restart
  | round h hruns ih =>
      obtain ⟨D₁, hfirst, hsecond⟩ := follows_append.mp hfollows
      exact (round_solvent h hruns (ih hfirst (readsKnown_append.mp hknown).1
        (cleanWidenings_append.mp hclean).1 rfl) hsecond hknown hclean).1 index
  | exit => cases hrunning
  | clear => cases hrunning

/-- **The pool is not overdrawn.** In every run in which no growth goes unread, what all VMs take after
a round, finished or cut, is within the pool or within what they took before it. -/
theorem round_keeps_pool {s : HostRuntime} {events : List (Event RuntimeAns)} {D₁ : Devices}
    {result : Option (Except HostRuntimeError Step × HostRuntime)}
    (h : HostRun (some poolBytes) configs labels (some s))
    (hruns : (HostRuntime.round s).Runs events result) (hbefore : Follows D labels D₁)
    (hround : Follows D₁ (.round :: events.map .event) D')
    (hknown : ReadsKnown .initial (labels ++ .round :: events.map .event))
    (hclean : CleanWidenings (labels ++ .round :: events.map .event)) :
    takenAll configs.length (HostWorld.after .initial (labels ++ .round :: events.map .event)) D' ≤
      max poolBytes (takenAll configs.length (HostWorld.after .initial labels) D₁) :=
  (round_solvent h hruns (hostRun_covered h hbefore (readsKnown_append.mp hknown).1
    (cleanWidenings_append.mp hclean).1 rfl) hround hknown hclean).2

/-! ## With the operator -/

/-- A clearing settles at what was read, and forgets what was recorded. -/
theorem Bounded.operate {op : VmOp} {answer : VmAns op} (h : Bounded bound w d)
    (hmay : w.MayOperate op) (hanswers : Answers d op answer d') :
    Bounded bound (w.next op answer) d' := by
  cases op with
  | memoryState =>
      obtain ⟨rfl, htrue⟩ := hanswers
      show Bounded bound (w.read answer) d'
      rcases w.read_cases answer with hread | ⟨state, hok, -, hread⟩
      · rw [hread]
        exact ⟨h.taken, h.read⟩
      · cases htrue state hok
        rw [hread]
        refine ⟨h.taken, ?_⟩
        rintro _ _ ⟨⟩
        exact h.occupied_le
  | persist file =>
      cases hanswers
      obtain ⟨live, now, reason, journal, -, -, -, -, hcontrol⟩ := hmay
      have hzero : file.control.intentTarget = 0 := intentTarget_none (by rw [hcontrol])
      show Bounded bound (w.persist file answer) d
      rcases w.persist_cases file answer with ⟨phase, -, hpersist⟩ | hpersist
      · rw [hpersist]
        exact ⟨max_le h.occupied_le (hzero.trans_le (Nat.zero_le _)), h.read⟩
      · rw [hpersist]
        exact ⟨h.taken, h.read⟩
  | retargetPending expected target =>
      obtain ⟨hlive, hfresh, -, rfl⟩ := hmay
      have hread := (le_max_right _ _).trans (h.read hfresh expected hlive)
      have hoccupied := hanswers.occupied_le.trans (max_le h.occupied_le hread)
      exact ⟨max_le hoccupied ((le_max_right _ _).trans h.taken),
        fun hfresh => h.read (Bool.and_eq_true _ _ ▸ hfresh).1⟩
  | nowUnixMillis =>
      cases hanswers
      exact h
  | _ => cases hmay

theorem Bounded.operated {bound : Nat → Nat} {events : List (Event VmAns)}
    (hlawful : Lawful pool configs W (events.map (.operated index)))
    (hfollows : Follows D (events.map (.operated index)) D')
    (h : ∀ other, Bounded (bound other) (W other) (D other)) (other : Nat) :
    Bounded (bound other) (HostWorld.after W (events.map (.operated index)) other) (D' other) := by
  induction events generalizing W D with
  | nil =>
      cases hfollows with
      | done hdrifts => exact (h other).drift (hdrifts other)
  | cons event events ih =>
      obtain ⟨op, answer⟩ := event
      cases hfollows with
      | label hdrifts hobeys hrest =>
      cases hobeys with
      | operated hanswers =>
      refine ih hlawful.2 hrest fun other => ?_
      show Bounded _ (Function.update W index ((W index).next op answer) other) _
      by_cases hne : other = index
      · subst hne
        rw [Function.update_self, Function.update_self]
        exact ((h other).drift (hdrifts other)).operate hlawful.1 hanswers
      · rw [Function.update_of_ne hne, Function.update_of_ne hne]
        exact (h other).drift (hdrifts other)

/-- **Over a whole run**, restarts and clearings included, what all VMs take is within the pool or within
what their devices held when the run began. -/
theorem hostRun_keeps_pool (h : HostRun (some poolBytes) configs labels process)
    (hfollows : Follows D labels D') (hknown : ReadsKnown .initial labels)
    (hclean : CleanWidenings labels) :
    takenAll configs.length (HostWorld.after .initial labels) D' ≤
      max poolBytes (∑ index ∈ Finset.range configs.length, occupied (D index)) := by
  have hdrifted : ∀ {W : HostWorld} {D D' : Devices}, (∀ index, Drifts (D index) (D' index)) →
      takenAll configs.length W D' ≤ takenAll configs.length W D := fun hdrifts =>
    Finset.sum_le_sum fun index _ => max_le_max_right _ (hdrifts index).occupied_le
  -- The bound is that of the run before; only a round needs the pool.
  induction h generalizing D' with
  | fresh =>
      cases hfollows with
      | done hdrifts =>
          refine le_max_of_le_right ((hdrifted hdrifts).trans_eq ?_)
          exact Finset.sum_congr rfl fun _ _ => max_eq_left (Nat.zero_le _)
  | start fingerprint pid _ h _ ih =>
      obtain ⟨D₁, hfirst, hsecond⟩ := follows_append.mp hfollows
      have hbefore := ih hfirst (readsKnown_append.mp hknown).1 (cleanWidenings_append.mp hclean).1
      rw [HostWorld.after_append]
      refine le_trans ?_ hbefore
      cases hsecond with
      | label hdrifts hobeys hdone =>
      cases hobeys
      cases hdone with
      | done hlast => exact (hdrifted hlast).trans (hdrifted hdrifts)
  | round h hruns ih =>
      obtain ⟨D₁, hfirst, hsecond⟩ := follows_append.mp hfollows
      have hbefore := ih hfirst (readsKnown_append.mp hknown).1 (cleanWidenings_append.mp hclean).1
      exact (round_keeps_pool h hruns hfirst hsecond hknown hclean).trans
        (max_le (le_max_left _ _) hbefore)
  | exit h hruns ih =>
      obtain ⟨D₁, hfirst, hsecond⟩ := follows_append.mp hfollows
      have hbefore := ih hfirst (readsKnown_append.mp hknown).1 (cleanWidenings_append.mp hclean).1
      exact (round_keeps_pool h hruns hfirst hsecond hknown hclean).trans
        (max_le (le_max_left _ _) hbefore)
  | @clear labels index config fingerprint reason apply events result h hconfig hruns ih =>
      obtain ⟨D₁, hfirst, hsecond⟩ := follows_append.mp hfollows
      have hbefore := ih hfirst (readsKnown_append.mp hknown).1 (cleanWidenings_append.mp hclean).1
      have hlawful := (lawful_append.mp (hostRun_lawful (h.clear hconfig hruns)).1).2.2
      rw [HostWorld.after_append]
      refine le_trans ?_ hbefore
      cases hsecond with
      | @label _ D₂ _ _ _ _ hdrifts hobeys hrest =>
      cases hobeys
      refine Finset.sum_le_sum fun other _ => ?_
      have hstart : ∀ other, Bounded (taken (HostWorld.after .initial labels other) (D₁ other))
          (HostWorld.step (HostWorld.after .initial labels) .started other) (D₂ other) := fun other =>
        ⟨max_le_max_right _ (hdrifts other).occupied_le, nofun⟩
      exact (Bounded.operated hlawful hrest hstart other).taken

/-! ## Two VMs in one pool

A pool of 5 GiB under two VMs of 2 GiB each. One grows by the gigabyte that is left, and then the other
asks for a gigabyte as well. -/

def sharedConfigs : List HostConfig := [exampleConfig, { exampleConfig with vmName := "other" }]

def sharedPool : Nat := 5 * 2 ^ 30

def sharedRuntime : HostRuntime where
  vms := [.new exampleConfig 1 (⟨"guest", "memory0", "", none⟩, .fresh),
    .new { exampleConfig with vmName := "other" } 1 (⟨"other", "memory0", "", none⟩, .fresh)]
  poolBytes := some sharedPool

theorem sharedRuntime_run : HostRun (some sharedPool) sharedConfigs [.started] (some sharedRuntime) :=
  .start (fun _ => "") 1 (by decide) .fresh rfl

def sharedDevices : Devices := fun _ => exampleDevice (2 ^ 31) (2 ^ 31)

/-- What the other guest publishes. -/
def otherPublication : RawTelemetryEnvelope :=
  { examplePublication (2 ^ 32)
      { exampleAdd with identity := ⟨"other", "service", "session", 100000⟩ } with vmName := "other" }

/-- The first VM asks for a gigabyte. -/
def firstGrowth : Script :=
  { exampleScript (examplePublication (2 ^ 32) exampleAdd) with
    guest := fun index => if index = 0 then some (examplePublication (2 ^ 32) exampleAdd) else none }

/-- The other one does, and the first can be read or not. -/
def secondGrowth (readable : Bool) : Script :=
  { exampleScript otherPublication with
    guest := fun index => if index = 0 then none else some otherPublication
    readable := fun index => readable || index != 0 }

def firstRounds : List Label × HostRuntime × Devices :=
  Script.rounds [firstGrowth] sharedRuntime sharedDevices

def firstLabels : List Label := .started :: firstRounds.1

def secondRound (readable : Bool) :
    List (Event RuntimeAns) × (Except HostRuntimeError Step × HostRuntime) × Devices :=
  (HostRuntime.round firstRounds.2.1).simulate (secondGrowth readable).env firstRounds.2.2

theorem first_run : HostRun (some sharedPool) sharedConfigs firstLabels (some firstRounds.2.1) ∧
    Follows sharedDevices firstLabels firstRounds.2.2 := by
  obtain ⟨hrun, hfollows⟩ := Script.playable_run sharedRuntime_run (by decide +kernel :
    Script.playable [firstGrowth] sharedRuntime sharedDevices = true)
  exact ⟨hrun, .label (fun _ => .refl _) .started hfollows⟩

theorem second_follows (readable : Bool) :
    Follows firstRounds.2.2 (.round :: (secondRound readable).1.map .event)
      (secondRound readable).2.2 :=
  .label (fun _ => .refl _) .round ((secondGrowth readable).simulate_follows _ _)

/-- Nothing is widened. -/
theorem cleanWidenings_of_none
    (h : labels.all (fun label => !label.command.any (·.2.isWiden)) = true) :
    CleanWidenings labels := by
  intro index op answer hmem
  have hlabel := List.all_eq_true.mp h _ hmem
  cases op with
  | widenUsableRegion expected => cases hlabel
  | _ => trivial

theorem second_runs (readable : Bool) : (HostRuntime.round firstRounds.2.1).Runs
    (secondRound readable).1 (some (secondRound readable).2.1) :=
  Prog.simulate_runs _ _ _

theorem second_clean (readable : Bool) :
    CleanWidenings (firstLabels ++ .round :: (secondRound readable).1.map .event) := by
  cases readable with
  | true => exact cleanWidenings_of_none (by decide +kernel)
  | false => exact cleanWidenings_of_none (by decide +kernel)

theorem second_known :
    ReadsKnown .initial (firstLabels ++ .round :: (secondRound true).1.map .event) := by
  decide +kernel

/-- Where the first VM can be read, the other is told that the pool is empty. -/
theorem shared_keeps_pool : takenAll sharedConfigs.length (HostWorld.after .initial
    (firstLabels ++ .round :: (secondRound true).1.map .event)) (secondRound true).2.2 ≤
      max sharedPool (∑ index ∈ Finset.range sharedConfigs.length, occupied (sharedDevices index)) :=
  hostRun_keeps_pool (.exit first_run.1 (second_runs true))
    (follows_append.mpr ⟨_, first_run.2, second_follows true⟩) second_known (second_clean true)

/-- **A growth that goes unread overdraws the pool.** The first VM is held at what it was charged before
it grew, and its gigabyte is given to the other again. -/
theorem unread_growth_overdrawn : ∃ (labels : List Label) (s : HostRuntime)
    (events : List (Event RuntimeAns)) (outcome : Except HostRuntimeError Step × HostRuntime)
    (D D₁ D' : Devices), HostRun (some sharedPool) sharedConfigs labels (some s) ∧
      (HostRuntime.round s).Runs events (some outcome) ∧ Follows D labels D₁ ∧
      Follows D₁ (.round :: events.map .event) D' ∧
      CleanWidenings (labels ++ .round :: events.map .event) ∧
      max sharedPool (takenAll 2 (HostWorld.after .initial labels) D₁) <
        takenAll 2 (HostWorld.after .initial (labels ++ .round :: events.map .event)) D' :=
  ⟨firstLabels, firstRounds.2.1, (secondRound false).1, (secondRound false).2.1, sharedDevices,
    firstRounds.2.2, (secondRound false).2.2, first_run.1, second_runs false, first_run.2,
    second_follows false, second_clean false, by decide +kernel⟩

end VirtioMem.Host
