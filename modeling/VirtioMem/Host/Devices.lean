import VirtioMem.Host.Lifetimes

/-!
# The devices under a run

What the real devices do while a run goes on. A device moves by itself, but only from what is plugged
toward what is requested (`Drifts`), and what is requested changes only by a command. A command that is
answered `ok` was applied, one that is rejected was not, and one of unknown outcome may have been
either; a reading that succeeds tells the truth (`Answers`).

`Follows D labels D'` says that the devices can go from `D` to `D'` along the labels of a run.
`Follows.invariant` is the induction over it for one VM and its device.
-/

namespace VirtioMem.Host

open VirtioMem.Core VirtioMem.Effect VirtioMem.Word

/-- The device of every VM. -/
abbrev Devices : Type := Nat → VirtioMemState

/-! ## What a device does -/

/-- A device moves by itself, from what is plugged toward what is requested. -/
def Drifts (d d' : VirtioMemState) : Prop :=
  d'.sizeBytes = d.sizeBytes ∧ d'.blockSizeBytes = d.blockSizeBytes ∧
    d'.requestedBytes = d.requestedBytes ∧
    (d.currentBytes ≤ d'.currentBytes ∧ d'.currentBytes ≤ d.requestedBytes ∨
      d.requestedBytes ≤ d'.currentBytes ∧ d'.currentBytes ≤ d.currentBytes ∨
      d'.currentBytes = d.currentBytes)

/-- What a command to request `target` leaves. -/
def Applies (d : VirtioMemState) (target : Nat) (answer : Except ResizeSinkError Unit)
    (d' : VirtioMemState) : Prop :=
  match answer with
  | .ok () => d' = { d with requestedBytes := target }
  | .error (.rejected _) => d' = d
  | .error (.commandUnknown _) => d' = d ∨ d' = { d with requestedBytes := target }

/-- What a widening leaves: it requests the whole device while the guest is paused and then what was
requested before, and of the two only an unknown outcome may have stopped in between. -/
def Widens (d expected : VirtioMemState) (answer : Except ResizeSinkError Unit)
    (d' : VirtioMemState) : Prop :=
  match answer with
  | .ok () => d' = { d with requestedBytes := expected.requestedBytes }
  | .error (.rejected _) => d' = d
  | .error (.commandUnknown _) => d' = d ∨
      d' = { d with requestedBytes := expected.requestedBytes } ∨
      d' = { d with requestedBytes := expected.maximumTargetBytes }

/-- What the device is before and after an operation answered that way. -/
def Answers (d : VirtioMemState) : (op : VmOp) → VmAns op → VirtioMemState → Prop
  | .memoryState, answer, d' => d' = d ∧ ∀ state, answer = .ok state → state = d
  | .requestResize _ _ target _, answer, d' => Applies d target answer.result d'
  | .retargetPending _ target, answer, d' => Applies d target answer d'
  | .widenUsableRegion expected, answer, d' => Widens d expected answer d'
  | .stopRequested, _, d' | .instantNow, _, d' | .nowUnixMillis, _, d' | .readGuest, _, d'
  | .writeTelemetry _ _, _, d' | .publishStatus _, _, d' | .availableBytes, _, d'
  | .persist _, _, d' => d' = d

/-- What a label does to the devices. -/
inductive Obeys (D : Devices) : Label → Devices → Prop
  | started : Obeys D .started D
  | round : Obeys D .round D
  | stopRequested {answer : Bool} : Obeys D (.event ⟨.stopRequested, answer⟩) D
  | event {index : Nat} {op : VmOp} {answer : VmAns op} {d : VirtioMemState}
      (h : Answers (D index) op answer d) :
      Obeys D (.event ⟨.vm index op, answer⟩) (Function.update D index d)
  | operated {index : Nat} {op : VmOp} {answer : VmAns op} {d : VirtioMemState}
      (h : Answers (D index) op answer d) :
      Obeys D (.operated index ⟨op, answer⟩) (Function.update D index d)

/-- The devices may go from the first to the last along the labels. -/
inductive Follows : Devices → List Label → Devices → Prop
  | done {D D' : Devices} (h : ∀ index, Drifts (D index) (D' index)) : Follows D [] D'
  | label {D D₁ D₂ D' : Devices} {label : Label} {labels : List Label}
      (hdrifts : ∀ index, Drifts (D index) (D₁ index)) (hobeys : Obeys D₁ label D₂)
      (h : Follows D₂ labels D') : Follows D (label :: labels) D'

instance (d d' : VirtioMemState) : Decidable (Drifts d d') :=
  inferInstanceAs (Decidable (_ ∧ _ ∧ _ ∧ _))

/-- A refused command changes nothing. -/
theorem Applies.refused {d d' : VirtioMemState} {target : Nat} {answer : Except ResizeSinkError Unit}
    (h : Applies d target answer d') (hrefused : VmWorld.refused answer = true) : d' = d := by
  unfold VmWorld.refused at hrefused
  split at hrefused
  · exact h
  · cases hrefused

theorem Drifts.refl (d : VirtioMemState) : Drifts d d :=
  ⟨rfl, rfl, rfl, .inr (.inr rfl)⟩

theorem Drifts.trans {d d' d'' : VirtioMemState} (h : Drifts d d') (h' : Drifts d' d'') :
    Drifts d d'' := by
  obtain ⟨hsize, hblock, hrequested, hcurrent⟩ := h
  obtain ⟨hsize', hblock', hrequested', hcurrent'⟩ := h'
  refine ⟨hsize'.trans hsize, hblock'.trans hblock, hrequested'.trans hrequested, ?_⟩
  omega

/-- A converged device stays where it is. -/
theorem Drifts.converged {d d' : VirtioMemState} (h : Drifts d d')
    (hconverged : d.requestedBytes = d.currentBytes) : d' = d := by
  obtain ⟨hsize, hblock, hrequested, hcurrent⟩ := h
  have hsame : d'.currentBytes = d.currentBytes := by omega
  cases d
  cases d'
  simp_all

theorem Follows.drift {D D' D'' : Devices} {labels : List Label}
    (hdrifts : ∀ index, Drifts (D index) (D' index)) (h : Follows D' labels D'') :
    Follows D labels D'' := by
  cases h with
  | done h => exact .done fun index => (hdrifts index).trans (h index)
  | label hfirst hobeys h => exact .label (fun index => (hdrifts index).trans (hfirst index)) hobeys h

theorem follows_append {D D' : Devices} {first second : List Label} :
    Follows D (first ++ second) D' ↔ ∃ D₁, Follows D first D₁ ∧ Follows D₁ second D' := by
  induction first generalizing D with
  | nil =>
      constructor
      · exact fun h => ⟨D, .done fun _ => .refl _, h⟩
      · rintro ⟨D₁, hfirst, h⟩
        cases hfirst with
        | done hdrifts => exact h.drift hdrifts
  | cons label first ih =>
      constructor
      · intro h
        cases h with
        | label hdrifts hobeys h =>
            obtain ⟨D₁, hfirst, h⟩ := ih.mp h
            exact ⟨D₁, .label hdrifts hobeys hfirst, h⟩
      · rintro ⟨D₁, hfirst, h⟩
        cases hfirst with
        | label hdrifts hobeys hfirst => exact .label hdrifts hobeys (ih.mpr ⟨D₁, hfirst, h⟩)

/-! ## One VM and its device -/

/-- What the runtime asks for a VM is answered as allowed. -/
def Answered (index : Nat) (allow : (op : VmOp) → VmAns op → Prop) (labels : List Label) : Prop :=
  ∀ op answer, .event ⟨.vm index op, answer⟩ ∈ labels → allow op answer

/-- Kept by what the device does, and by every allowed step of the protocols together with it. -/
structure KeptBy (configs : List HostConfig) (index : Nat) (allow : (op : VmOp) → VmAns op → Prop)
    (I : VmWorld → VirtioMemState → Prop) : Prop where
  drift : ∀ w d d', I w d → Drifts d d' → I w d'
  restart : ∀ w d, I w d → I w.restart d
  stale : ∀ w d, I w d → I w.stale d
  next : ∀ config stage committed w d op answer d', configs[index]? = some config → I w d →
    w.May config stage committed op → allow op answer → Answers d op answer d' →
    I (w.next op answer) d'
  operate : ∀ w d op answer d', I w d → w.MayOperate op → Answers d op answer d' →
    I (w.next op answer) d'

variable {pool : Option Nat} {configs : List HostConfig} {W : HostWorld} {index : Nat}
  {label : Label} {labels : List Label} {D D' : Devices} {I : VmWorld → VirtioMemState → Prop}
  {allow : (op : VmOp) → VmAns op → Prop}

theorem KeptBy.step (h : KeptBy configs index allow I) (hallowed : Allowed pool configs W label)
    (hanswered : Answered index allow [label]) (hobeys : Obeys D label D')
    (hI : I (W index) (D index)) : I (HostWorld.step W label index) (D' index) := by
  cases hobeys with
  | started => exact h.restart _ _ hI
  | round => exact h.stale _ _ hI
  | stopRequested => exact hI
  | @event other op answer d hanswers =>
      obtain ⟨committed, ⟨config, stage, hconfig, hmay⟩, -⟩ := hallowed
      show I (Function.update W other ((W other).next op answer) index) _
      by_cases hother : index = other
      · subst hother
        rw [Function.update_self, Function.update_self]
        have hallow := hanswered op answer (List.mem_singleton_self _)
        exact h.next _ _ _ _ _ _ _ _ hconfig hI hmay hallow hanswers
      · rw [Function.update_of_ne hother, Function.update_of_ne hother]
        exact hI
  | @operated other op answer d hanswers =>
      show I (Function.update W other ((W other).next op answer) index) _
      by_cases hother : index = other
      · subst hother
        rw [Function.update_self, Function.update_self]
        exact h.operate _ _ _ _ _ hI hallowed hanswers
      · rw [Function.update_of_ne hother, Function.update_of_ne hother]
        exact hI

/-- **What every step keeps of one VM and its device, a run keeps.** -/
theorem KeptBy.follows (h : KeptBy configs index allow I) (hlawful : Lawful pool configs W labels)
    (hanswered : Answered index allow labels) (hfollows : Follows D labels D')
    (hI : I (W index) (D index)) : I (HostWorld.after W labels index) (D' index) := by
  induction hfollows generalizing W with
  | done hdrifts => exact h.drift _ _ _ hI (hdrifts index)
  | label hdrifts hobeys _ ih =>
      apply ih hlawful.2
      · exact fun op answer hmem => hanswered op answer (List.mem_cons_of_mem _ hmem)
      · refine h.step hlawful.1 ?_ hobeys (h.drift _ _ _ hI (hdrifts index))
        intro op answer hmem
        rw [List.mem_singleton] at hmem
        exact hanswered op answer (hmem ▸ List.mem_cons_self)

/-! ## Commands -/

/-- What the runtime tells a device. -/
inductive Command where
  | resize (request : MemoryRequest) (expected : VirtioMemState) (target : Nat)
      (authorize : Authorization)
  | retarget (expected : VirtioMemState) (target : Nat)
  | widen (expected : VirtioMemState)
  deriving DecidableEq, Repr

def Command.isRetarget : Command → Bool
  | retarget _ _ => true
  | _ => false

def Command.isWiden : Command → Bool
  | widen _ => true
  | _ => false

def Command.op : Command → VmOp
  | resize request expected target authorize => .requestResize request expected target authorize
  | retarget expected target => .retargetPending expected target
  | widen expected => .widenUsableRegion expected

/-- The command an operation is, and to which VM's device. -/
def commandOf : RuntimeOp → Option (Nat × Command)
  | .vm index (.requestResize request expected target authorize) =>
    some (index, .resize request expected target authorize)
  | .vm index (.retargetPending expected target) => some (index, .retarget expected target)
  | .vm index (.widenUsableRegion expected) => some (index, .widen expected)
  | _ => none

def Label.command : Label → Option (Nat × Command)
  | .event ⟨op, _⟩ => commandOf op
  | _ => none

theorem commandOf_eq_some {op : RuntimeOp} {command : Command}
    (h : commandOf op = some (index, command)) : op = .vm index command.op := by
  unfold commandOf at h
  split at h <;> cases h <;> rfl

/-- The list around its `k`-th member. -/
theorem split_at {α β : Type} {f : α → Option β} {list : List α} {value : β} (k : Nat)
    (h : list[k]?.bind f = some value) :
    ∃ member, f member = some value ∧ list = list.take k ++ member :: list.drop (k + 1) := by
  obtain ⟨member, hmember, hvalue⟩ := Option.bind_eq_some_iff.mp h
  obtain ⟨hk, rfl⟩ := List.getElem?_eq_some_iff.mp hmember
  exact ⟨_, hvalue, by simp⟩

theorem command_split {command : Command} (k : Nat)
    (h : labels[k]?.bind Label.command = some (index, command)) : ∃ answer,
      labels = labels.take k ++ .event ⟨.vm index command.op, answer⟩ :: labels.drop (k + 1) := by
  obtain ⟨label, hlabel, hsplit⟩ := split_at k h
  match label with
  | .event ⟨op, answer⟩ =>
      cases commandOf_eq_some hlabel
      exact ⟨answer, hsplit⟩
  | .started => cases hlabel
  | .round => cases hlabel
  | .operated _ _ => cases hlabel

/-! ## Scripted rounds

An environment for one round: what is plugged when it begins, what the clocks and the guests say, which
devices can be read, and what every command is answered. The devices themselves answer truthfully. -/

structure Script where
  /-- What is plugged in the first VMs; the others have not moved. -/
  plugged : List Nat
  instant : Nat
  unixMillis : Nat
  readable : Nat → Bool
  guest : Nat → Option RawTelemetryEnvelope
  availableBytes : U64
  command : Except ResizeSinkError Unit

namespace Script

/-- The least a command can leave: what is certain. -/
def apply (answer : Except ResizeSinkError Unit) (target : Nat) (d : VirtioMemState) :
    VirtioMemState :=
  match answer with
  | .ok () => { d with requestedBytes := target }
  | .error _ => d

def answer (script : Script) (index : Nat) (d : VirtioMemState) :
    (op : VmOp) → VmAns op × VirtioMemState
  | .stopRequested => (false, d)
  | .instantNow => (script.instant, d)
  | .nowUnixMillis => (.ok script.unixMillis, d)
  | .memoryState => (if script.readable index then .ok d else .error "unreadable", d)
  | .readGuest => (Result.okOr (script.guest index) "no publication", d)
  | .writeTelemetry _ _ => (.ok (), d)
  | .publishStatus _ => (.ok (), d)
  | .availableBytes => (.ok script.availableBytes, d)
  | .persist _ => (.written, d)
  | .requestResize _ _ target _ =>
    (⟨[.ok script.availableBytes], script.command⟩, apply script.command target d)
  | .retargetPending _ target => (script.command, apply script.command target d)
  | .widenUsableRegion expected =>
    (script.command, match script.command with
      | .ok () => { d with requestedBytes := expected.requestedBytes }
      | .error (.rejected _) => d
      | .error (.commandUnknown _) => { d with requestedBytes := expected.maximumTargetBytes })

def env (script : Script) (D : Devices) : (op : RuntimeOp) → RuntimeAns op × Devices
  | .stopRequested => (false, D)
  | .vm index op =>
    ((script.answer index (D index) op).1,
      Function.update D index (script.answer index (D index) op).2)

theorem apply_applies (answer : Except ResizeSinkError Unit) (target : Nat) (d : VirtioMemState) :
    Applies d target answer (apply answer target d) := by
  match answer with
  | .ok () => rfl
  | .error (.rejected _) => rfl
  | .error (.commandUnknown _) => exact .inl rfl

/-- The script answers as devices do. -/
theorem answer_answers (script : Script) (index : Nat) (d : VirtioMemState) (op : VmOp) :
    Answers d op (script.answer index d op).1 (script.answer index d op).2 := by
  cases op with
  | memoryState =>
      refine ⟨rfl, ?_⟩
      intro state hstate
      change (if script.readable index then _ else _) = _ at hstate
      split at hstate <;> cases hstate
      rfl
  | requestResize _ _ target _ => exact apply_applies script.command target d
  | retargetPending _ target => exact apply_applies script.command target d
  | widenUsableRegion expected =>
      show Widens d expected script.command (match script.command with
        | .ok () => _
        | .error (.rejected _) => _
        | .error (.commandUnknown _) => _)
      match script.command with
      | .ok () => rfl
      | .error (.rejected _) => rfl
      | .error (.commandUnknown _) => exact .inr (.inr rfl)
  | _ => rfl

theorem env_obeys (script : Script) (D : Devices) (op : RuntimeOp) :
    Obeys D (.event ⟨op, (script.env D op).1⟩) (script.env D op).2 := by
  cases op with
  | stopRequested => exact .stopRequested
  | vm index op => exact .event (script.answer_answers index (D index) op)

/-- A scripted round is followed by its devices. -/
theorem simulate_follows {α : Type} (script : Script) (p : Prog RuntimeOp RuntimeAns α)
    (D : Devices) :
    Follows D ((p.simulate script.env D).1.map .event) (p.simulate script.env D).2.2 := by
  induction p generalizing D with
  | pure value => exact .done fun _ => .refl _
  | perform op resume ih =>
      exact .label (fun _ => .refl _) (script.env_obeys D op) (ih (script.env D op).1 _)

/-- Where the devices stand after some events of the round. -/
def devices (script : Script) (D : Devices) (events : List (Event RuntimeAns)) : Devices :=
  events.foldl (fun D event => (script.env D event.1).2) D

/-- They follow a round that is cut as well. -/
theorem cut_follows {α : Type} (script : Script) (p : Prog RuntimeOp RuntimeAns α) (D : Devices)
    (k : Nat) : Follows D (((p.simulate script.env D).1.take k).map .event)
      (script.devices D ((p.simulate script.env D).1.take k)) := by
  induction p generalizing D k with
  | pure value =>
      show Follows D (([].take k).map .event) (script.devices D ([].take k))
      rw [List.take_nil]
      exact .done fun _ => .refl _
  | perform op resume ih =>
      cases k with
      | zero => exact .done fun _ => .refl _
      | succ k =>
          exact .label (fun _ => .refl _) (script.env_obeys D op) (ih (script.env D op).1 _ k)

/-- The devices at the beginning of the round. -/
def moved (script : Script) (D : Devices) : Devices := fun index =>
  match script.plugged[index]? with
  | none => D index
  | some currentBytes => { D index with currentBytes := currentBytes }

/-- One round after the other: the labels, the runtime and the devices at the end. -/
def rounds : List Script → HostRuntime → Devices → List Label × HostRuntime × Devices
  | [], s, D => ([], s, D)
  | script :: scripts, s, D =>
    let result := (HostRuntime.round s).simulate script.env (script.moved D)
    let rest := rounds scripts result.2.1.2 result.2.2
    (.round :: result.1.map .event ++ rest.1, rest.2)

/-- Every round is one after which the daemon goes on, and the devices only drift in between. -/
def playable : List Script → HostRuntime → Devices → Bool
  | [], _, _ => true
  | script :: scripts, s, D =>
    let result := (HostRuntime.round s).simulate script.env (script.moved D)
    (List.range script.plugged.length).all (fun index =>
        decide (Drifts (D index) (script.moved D index))) &&
      (match result.2.1.1 with
        | .ok .wait => true
        | _ => false) &&
      playable scripts result.2.1.2 result.2.2

theorem moved_drifts {script : Script} {D : Devices}
    (h : (List.range script.plugged.length).all (fun index =>
      decide (Drifts (D index) (script.moved D index))) = true) (index : Nat) :
    Drifts (D index) (script.moved D index) := by
  by_cases hindex : index < script.plugged.length
  · exact of_decide_eq_true (List.all_eq_true.mp h index (List.mem_range.mpr hindex))
  · unfold moved
    rw [List.getElem?_eq_none (not_lt.mp hindex)]
    exact .refl _

/-- **A playable script is a run**, and its devices follow it. -/
theorem playable_run {scripts : List Script} {s : HostRuntime} {D : Devices}
    (hrun : HostRun pool configs labels (some s)) (h : playable scripts s D = true) :
    HostRun pool configs (labels ++ (rounds scripts s D).1) (some (rounds scripts s D).2.1) ∧
      Follows D (rounds scripts s D).1 (rounds scripts s D).2.2 := by
  induction scripts generalizing labels s D with
  | nil =>
      refine ⟨?_, .done fun _ => .refl _⟩
      show HostRun pool configs (labels ++ []) _
      rw [List.append_nil]
      exact hrun
  | cons script scripts ih =>
      simp only [playable, Bool.and_eq_true] at h
      simp only [rounds]
      obtain ⟨⟨hmoved, hwait⟩, hrest⟩ := h
      have hround := Prog.simulate_runs script.env (HostRuntime.round s) (script.moved D)
      have hfollows := script.simulate_follows (HostRuntime.round s) (script.moved D)
      generalize (HostRuntime.round s).simulate script.env (script.moved D) = result at *
      obtain ⟨events, ⟨outcome, s'⟩, D'⟩ := result
      have houtcome : outcome = .ok .wait := by
        dsimp only at hwait
        split at hwait
        · rfl
        · cases hwait
      subst houtcome
      obtain ⟨hrun', hfollows'⟩ := ih (hrun.round hround) hrest
      refine ⟨?_, .label (moved_drifts hmoved) .round ?_⟩
      · rw [List.append_assoc] at hrun'
        exact hrun'
      · exact follows_append.mpr ⟨D', hfollows, hfollows'⟩

end Script

/-! ## An example VM

One VM on an 8 GiB device, and the parts of its scripts. -/

def exampleConfig : HostConfig where
  vmName := "guest"
  deviceAlias := "memory0"
  priority := 0
  pollInterval := 1000000000
  convergenceTimeout := 60000000000
  rawTelemetryServiceName := "service"
  rawTelemetryFutureTolerance := 5000000000
  hostMinHeadroomBytes := 0
  observeOnly := false
  minRam := 1073741824
  maxRam := 8589934592
  telemetryPath := none

def exampleDevice (requestedBytes currentBytes : Nat) : VirtioMemState where
  sizeBytes := 8 * 2 ^ 30
  blockSizeBytes := 2 ^ 21
  requestedBytes := requestedBytes
  currentBytes := currentBytes

def exampleRequest (operation : MemoryOperation) (bytes issuedUnixMillis : Nat) : MemoryRequest where
  version := memoryRequestVersion
  identity := ⟨"guest", "service", "session", issuedUnixMillis⟩
  operation := operation
  bytes := bytes
  issuedUnixMillis := issuedUnixMillis
  expiresUnixMillis := issuedUnixMillis + 20000

def examplePublication (physicalTotalBytes : Nat) (request : MemoryRequest) :
    RawTelemetryEnvelope where
  version := rawTelemetryVersion
  vmName := "guest"
  serviceName := "service"
  sessionId := "session"
  observedUnixMillis := 90000
  monotonicMillis := 1000
  sequence := 0
  memory := ⟨physicalTotalBytes, 0, 100, 2 ^ 30, 8 * 2 ^ 30, 2 ^ 30⟩
  nativePressure := none
  request := some request

/-- Every VM publishes the same. -/
def exampleScript (publication : RawTelemetryEnvelope) : Script where
  plugged := []
  instant := 0
  unixMillis := 100000
  readable _ := true
  guest _ := some publication
  availableBytes := 2 ^ 36
  command := .ok ()

/-- An addition issued at 100 s. -/
def exampleAdd : MemoryRequest := exampleRequest .add (2 ^ 30) 100000

/-- The daemon of that VM on a new checkpoint. -/
def exampleRuntime : HostRuntime where
  vms := [.new exampleConfig 1 (⟨"guest", "memory0", "", none⟩, .fresh)]
  poolBytes := none

theorem exampleRuntime_run : HostRun none [exampleConfig] [.started] (some exampleRuntime) :=
  .start (fun _ => "") 1 (by decide) .fresh rfl

end VirtioMem.Host
