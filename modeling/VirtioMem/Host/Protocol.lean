import VirtioMem.Host.Runtime

/-!
# The write-ahead protocol of one VM

What the host does for a VM, seen from outside: writes of its checkpoint, commands to its device and
publications to its guest. `VmWorld` is what an observer of those operations knows, and `VmWorld.May`
the protocol: which write may follow which, and which saved record a command needs.

`Writes` is the heart of it. It lists everything a checkpoint write may do to the control state, with
the facts that justify it; nothing else about the controller is needed to reason about what is on
disk. `ControlInv` is the invariant that ties intent, latch and journal together, and `Writes.inv`
says that every write restores it.
-/

namespace VirtioMem.Host

open VirtioMem.Core VirtioMem.Effect VirtioMem.Word

/-! ## What an observer knows -/

/-- Where the execution of a request stands. -/
inductive Phase where
  | idle
  /-- The intent of a resize is saved and the resize was not sent yet. -/
  | armed
  /-- The sink has refused it, and the intent is still saved. -/
  | rejected
  /-- A write has failed; the process does nothing any more. -/
  | ended
  deriving DecidableEq, Repr

structure VmWorld where
  /-- The checkpoint file. -/
  disk : Option CheckpointFile
  /-- The last valid reading of the device since the process started. -/
  live : Option VirtioMemState
  /-- The device was read in this round and sent nothing since. -/
  fresh : Bool
  /-- The last publication read, if it was accepted. -/
  guest : Option RawTelemetryEnvelope
  phase : Phase
  /-- What the last valid reading charges the pool. -/
  remembered : Option Nat
  /-- What the VM is charged now: the last reading, or what a later write has raised it to. -/
  charge : Option Nat

namespace VmWorld

def initial : VmWorld := ⟨none, none, false, none, .idle, none, none⟩

/-- The control state a restart would resume. -/
def control (w : VmWorld) : DurableControlState := controlOf w.disk

/-- Growth still to come as of the last reading, or nothing where the VM was never read. -/
def outstanding (w : VmWorld) : Option Nat :=
  w.live.map (VmController.outstandingOf w.control)

/-- A new process knows nothing but the file. -/
def restart (w : VmWorld) : VmWorld := { initial with disk := w.disk }

/-- A new round knows nothing about the device yet. -/
def stale (w : VmWorld) : VmWorld := { w with fresh := false }

/-- A reading that `liveState` accepts. -/
def accepted : Except String VirtioMemState → Option VirtioMemState
  | .error _ => none
  | .ok state => if state.validate = .ok () then some state else none

def read (w : VmWorld) (answer : Except String VirtioMemState) : VmWorld :=
  match accepted answer with
  | none => { w with charge := w.remembered }
  | some state => { w with
      live := some state
      fresh := true
      remembered := some (VmController.chargeOf w.control state)
      charge := some (VmController.chargeOf w.control state) }

def hear (w : VmWorld) (answer : Except String RawTelemetryEnvelope) : VmWorld :=
  { w with guest := answer.toOption }

/-- The file is in place, and the target of a new intent is charged. -/
def store (w : VmWorld) (file : CheckpointFile) : VmWorld :=
  { w with
    disk := some file
    charge := if w.control.intent = none then w.charge.map (max · file.control.intentTarget)
      else w.charge }

def persist (w : VmWorld) (file : CheckpointFile) : Saved → VmWorld
  | .written => { w.store file with
      phase := if w.control.intent.isNone && file.control.intent.isSome then .armed else .idle }
  | .failed _ true => { w.store file with phase := .ended }
  | .failed _ false => { w with phase := .ended }

/-- Whether a command certainly did nothing. -/
def refused : Except ResizeSinkError Unit → Bool
  | .error (.rejected _) => true
  | _ => false

def command (w : VmWorld) (answer : Except ResizeSinkError Unit) : VmWorld :=
  { w with fresh := w.fresh && refused answer }

def resize (w : VmWorld) (answer : Except ResizeSinkError Unit) : VmWorld :=
  { w.command answer with phase := if refused answer then .rejected else .idle }

/-- Only a widening of unknown outcome leaves the device changed. -/
def widen (w : VmWorld) (answer : Except ResizeSinkError Unit) : VmWorld :=
  match answer with
  | .error (.commandUnknown _) => { w with fresh := false }
  | _ => w

def next (w : VmWorld) : (op : VmOp) → VmAns op → VmWorld
  | .memoryState, answer => w.read answer
  | .readGuest, answer => w.hear answer
  | .persist file, answer => w.persist file answer
  | .requestResize _ _ _ _, answer => w.resize answer.result
  | .retargetPending _ _, answer => w.command answer
  | .widenUsableRegion _, answer => w.widen answer
  | .stopRequested, _ | .instantNow, _ | .nowUnixMillis, _ | .writeTelemetry _ _, _
  | .publishStatus _, _ | .availableBytes, _ => w

end VmWorld

/-! ## The protocol -/

/-- The two phases of a round; the second has the ceiling the pool gave the VM. -/
inductive Stage where
  | observing
  | acting (ceiling : Option Nat)

/-- What justifies the target of a new command, against the device and the guest's RAM as read. -/
structure Granted (config : HostConfig) (ceiling : Option Nat) (totalBytes : Nat)
    (live : VirtioMemState) (request : MemoryRequest) (target : Nat) : Prop where
  counted : live.currentBytes ≤ totalBytes
  add : request.operation = .add →
    live.currentBytes < target ∧ target - live.currentBytes ≤ request.bytes ∧
      totalBytes - live.currentBytes + target ≤ (config.maxRam : Nat) ∧
      target ≤ live.maximumTargetBytes ∧ ∀ limit, ceiling = some limit → target ≤ limit
  remove : request.operation = .remove →
    target < live.currentBytes ∧ live.currentBytes - target ≤ request.bytes ∧
      (config.minRam : Nat) ≤ totalBytes - live.currentBytes + target
  aligned : target % live.blockSizeBytes = 0

/-- What a latch does to the journal: an unresolved request becomes uncertain. -/
def Latches (journal after : MemoryRequestJournal) : Prop :=
  (after = journal ∧ ∀ request, journal.request = some request → journal.result.isSome) ∨
  ∃ request now reason, journal.request = some request ∧ journal.result = none ∧
    journal.recordResult ⟨request, .uncertain, 0, now, some reason⟩ = (.ok (), after)

/-- **Everything a checkpoint write may do** to the control state, and what it needs. -/
inductive Writes (config : HostConfig) (stage : Stage) (w : VmWorld) : DurableControlState → Prop
  /-- The device has converged to the recorded target; the request gets its result. -/
  | resolve {intent : CommandIntent} {live : VirtioMemState} {now : Nat} {result : MemoryResult}
      {journal : MemoryRequestJournal} (hstage : stage = .observing) (hphase : w.phase = .idle)
      (hintent : w.control.intent = some intent) (hlive : w.live = some live)
      (hfresh : w.fresh = true) (hrequested : live.requestedBytes = intent.targetBytes)
      (hcurrent : live.currentBytes = intent.targetBytes)
      (hresult : movementResult w.control.journal intent live now
        (VmController.resolvedReason intent.direction) = some result)
      (hjournal : w.control.journal.recordResult result = (.ok (), journal)) :
      Writes config stage w { w.control with intent := none, journal := journal }
  /-- Actuation is latched; the intent stays. -/
  | latch {reason : String} {journal : MemoryRequestJournal} (hphase : w.phase = .idle)
      (hunlatched : w.control.latchReason = none) (hjournal : Latches w.control.journal journal) :
      Writes config stage w { w.control with latchReason := some reason, journal := journal }
  /-- A new request is admitted together with the intent of its command. -/
  | begin {ceiling : Option Nat} {live : VirtioMemState} {envelope : RawTelemetryEnvelope}
      {request : MemoryRequest} {intent : CommandIntent} {now tolerance : Nat}
      (hstage : stage = .acting ceiling) (hphase : w.phase = .idle)
      (hlive : w.live = some live) (hfresh : w.fresh = true)
      (hconverged : live.requestedBytes = live.currentBytes)
      (hunlatched : w.control.latchReason = none) (hidle : w.control.intent = none)
      (hsettled : w.control.journal.Settled) (hahead : w.control.journal.Ahead request)
      (hvalid : request.validateAt config.vmName config.rawTelemetryServiceName now tolerance =
        .ok ())
      (hguest : w.guest = some envelope) (hrequest : envelope.request = some request)
      (hgranted : Granted config ceiling envelope.memory.physicalTotalBytes live request
        intent.targetBytes)
      (hdirection : intent.direction = VmController.directionFor request.operation)
      (hprior : intent.priorCurrentBytes = live.currentBytes) :
      Writes config stage w
        { w.control with intent := some intent, journal := ⟨some request, none⟩ }
  /-- The sink refused the command, so its intent goes and the request is rejected. -/
  | release {ceiling : Option Nat} {request : MemoryRequest} {now : Nat} {reason : String}
      {journal : MemoryRequestJournal} (hstage : stage = .acting ceiling)
      (hphase : w.phase = .rejected) (hrequest : w.control.journal.request = some request)
      (hjournal : w.control.journal.recordResult (.rejected request now reason) = (.ok (), journal)) :
      Writes config stage w { w.control with intent := none, journal := journal }
  /-- A new request ends without a command. -/
  | unexecuted {ceiling : Option Nat} {result : MemoryResult} {journal : MemoryRequestJournal}
      (hstage : stage = .acting ceiling) (hphase : w.phase = .idle)
      (hidle : w.control.intent = none) (hahead : w.control.journal.Ahead result.request)
      (hterminal : result.terminal = true)
      (hjournal : (⟨some result.request, none⟩ : MemoryRequestJournal).recordResult result =
        (.ok (), journal)) :
      Writes config stage w { w.control with journal := journal }
  /-- A stalled shrink is about to be asked for more. -/
  | extend {intent : CommandIntent} {live : VirtioMemState} {target : Nat}
      (hstage : stage = .observing) (hphase : w.phase = .idle)
      (hintent : w.control.intent = some intent) (hlive : w.live = some live)
      (hfresh : w.fresh = true) (howned : intent.targetBytes = live.requestedBytes)
      (hdirection : intent.direction = .shrink) (hlower : target < live.requestedBytes) :
      Writes config stage w
        { w.control with intent := some { intent with targetBytes := target } }
  /-- The sink refused that, so the previous target holds. -/
  | restore {intent : CommandIntent} {live : VirtioMemState} (hstage : stage = .observing)
      (hphase : w.phase = .idle) (hintent : w.control.intent = some intent)
      (hlive : w.live = some live) (hfresh : w.fresh = true)
      (hlower : intent.targetBytes ≤ live.requestedBytes) :
      Writes config stage w
        { w.control with intent := some { intent with targetBytes := live.requestedBytes } }
  /-- A resize is about to be settled at what is plugged. -/
  | settle {intent : CommandIntent} {live : VirtioMemState} {operationId : String} {now : Nat}
      {direction : CommandDirection} (hstage : stage = .observing) (hphase : w.phase = .idle)
      (hintent : w.control.intent = some intent) (hlive : w.live = some live)
      (hfresh : w.fresh = true) (howned : intent.targetBytes = live.requestedBytes)
      (hdirection : intent.direction = direction) :
      Writes config stage w { w.control with
        intent := some (VmController.settlement operationId now direction live (some intent)) }

/-- What the target of a pending resize may be moved to. -/
inductive Retargets (config : HostConfig) (w : VmWorld) (live : VirtioMemState) (target : Nat)
    (direction : CommandDirection) : Prop
  | settle (htarget : target = live.currentBytes) (hdirection : direction ≠ .shrink)
  | extend {envelope : RawTelemetryEnvelope} (hdirection : direction = .shrink)
      (hlower : target < live.requestedBytes) (hguest : w.guest = some envelope)
      (hcounted : live.currentBytes ≤ envelope.memory.physicalTotalBytes)
      (hminimum : (config.minRam : Nat) ≤
        envelope.memory.physicalTotalBytes - live.currentBytes + target)

/-- **The protocol of one VM.** A command needs the saved intent it carries out, and the device as it
was read. -/
def VmWorld.May (config : HostConfig) (stage : Stage) (w : VmWorld) (committed : Nat) : VmOp → Prop
  | .memoryState => stage = .observing ∧ w.phase = .idle
  | .publishStatus _ => w.phase = .idle
  | .persist file => Writes config stage w file.control
  | .requestResize request expected target authorize =>
      w.phase = .armed ∧ config.observeOnly = false ∧ w.live = some expected ∧ w.fresh = true ∧
      expected.requestedBytes = expected.currentBytes ∧
      w.control.journal = ⟨some request, none⟩ ∧
      (∃ intent, w.control.intent = some intent ∧ intent.targetBytes = target) ∧
      (∃ now tolerance, request.validateAt config.vmName config.rawTelemetryServiceName now
        tolerance = .ok ()) ∧
      authorize = ⟨expected.currentBytes, target, committed, config.hostMinHeadroomBytes⟩ ∧
      ∃ envelope ceiling, w.guest = some envelope ∧ envelope.request = some request ∧
        Granted config ceiling envelope.memory.physicalTotalBytes expected request target
  | .retargetPending expected target =>
      w.phase = .idle ∧ w.live = some expected ∧ w.fresh = true ∧
      expected.requestedBytes ≠ expected.currentBytes ∧
      ∃ intent, w.control.intent = some intent ∧ intent.targetBytes = target ∧
        Retargets config w expected target intent.direction
  | .widenUsableRegion expected =>
      w.phase = .idle ∧ w.live = some expected ∧ w.fresh = true ∧
      expected.requestedBytes = expected.currentBytes ∧ w.control.intent = none
  | .stopRequested | .instantNow | .nowUnixMillis | .readGuest | .writeTelemetry _ _
  | .availableBytes => True

/-- What growth has been committed to in this round after a command. -/
def commit (committed : Nat) : VmOp → Nat
  | .requestResize _ expected target _ => saturatingAdd committed (target - expected.currentBytes)
  | _ => committed

/-- The protocol as a safety automaton, with the growth committed to so far. -/
def vmLaw (config : HostConfig) (stage : Stage) : Monitor (VmWorld × Nat) VmOp VmAns where
  may w op := w.1.May config stage w.2 op
  next w op answer := (w.1.next op answer, commit w.2 op)

/-! ## What is on disk -/

/-- **The invariant of the control state.** An intent is there only while its request has no terminal
result, without an intent every admitted request has one, and a latch leaves no request without some
result. -/
structure ControlInv (control : DurableControlState) : Prop where
  executing : ∀ intent, control.intent = some intent → ∃ request,
    control.journal.request = some request ∧
      ∀ result, control.journal.result = some result → result.outcome = .uncertain
  settled : control.intent = none → control.journal.Settled
  latched : control.latched = true → ∀ request, control.journal.request = some request →
    ∃ result, control.journal.result = some result
  own : ∀ result, control.journal.result = some result →
    control.journal.request = some result.request

theorem controlInv_fresh : ControlInv .fresh where
  executing := nofun
  settled _ := nofun
  latched := nofun
  own := nofun

theorem terminal_iff {result : MemoryResult} :
    result.terminal = true ↔ result.outcome ≠ .uncertain := by
  simp [MemoryResult.terminal]

theorem movementResult_eq_some {journal : MemoryRequestJournal} {intent : CommandIntent}
    {live : VirtioMemState} {now : Nat} {reason : Option String} {result : MemoryResult}
    (h : movementResult journal intent live now reason = some result) :
    journal.request = some result.request ∧ result.terminal = true := by
  obtain ⟨request, hrequest, rfl⟩ := Option.map_eq_some_iff.mp h
  refine ⟨hrequest, ?_⟩
  rw [terminal_iff]
  dsimp only
  split_ifs <;> exact nofun

/-- A journal that has recorded a result holds that request and that result. -/
theorem recorded {journal after : MemoryRequestJournal} {result : MemoryResult}
    (h : journal.recordResult result = (.ok (), after)) :
    after.request = some result.request ∧ after.request = journal.request ∧
      ∃ kept, after.result = some kept ∧ kept.outcome = result.outcome ∧
        kept.request = result.request := by
  obtain ⟨hrequest, rfl, -, -⟩ := MemoryRequestJournal.recordResult_ok h
  exact ⟨hrequest, rfl, _, rfl, rfl, rfl⟩

/-- Without an intent, a recorded terminal result is all the invariant needs. -/
theorem ControlInv.of_recorded {control : DurableControlState} {journal : MemoryRequestJournal}
    {result : MemoryResult} (hintent : control.intent = none)
    (hterminal : result.terminal = true)
    (h : journal.recordResult result = (.ok (), control.journal)) : ControlInv control := by
  obtain ⟨hrequest, -, kept, hkept, houtcome, hsame⟩ := recorded h
  have hkeptterminal : kept.terminal = true := by
    rw [terminal_iff, houtcome, ← terminal_iff]
    exact hterminal
  exact {
    executing := fun intent h => by rw [hintent] at h; cases h
    settled := fun _ _ _ => ⟨kept, hkept, hkeptterminal⟩
    latched := fun _ _ _ => ⟨kept, hkept⟩
    own := by
      intro other hother
      rw [hkept] at hother
      cases hother
      rw [hrequest, hsame] }

/-- The invariant does not look at what an intent says. -/
theorem ControlInv.of_intent {control : DurableControlState} {intent intent' : CommandIntent}
    (h : ControlInv control) (hintent : control.intent = some intent) :
    ControlInv { control with intent := some intent' } where
  executing := fun _ _ => h.executing intent hintent
  settled := nofun
  latched := h.latched
  own := h.own

theorem ControlInv.of_latch {control : DurableControlState} {journal : MemoryRequestJournal}
    {reason : String} (h : ControlInv control) (hjournal : Latches control.journal journal) :
    ControlInv { control with latchReason := some reason, journal := journal } := by
  rcases hjournal with ⟨rfl, hresult⟩ | ⟨request, now, text, hrequest, hnone, hrecord⟩
  · exact {
      executing := h.executing
      settled := h.settled
      latched := fun _ request hrequest => Option.isSome_iff_exists.mp (hresult request hrequest)
      own := h.own }
  · obtain ⟨hafter, -, kept, hkept, houtcome, hsame⟩ := recorded hrecord
    exact {
      executing := by
        intro intent hintent
        refine ⟨request, hafter, ?_⟩
        intro result hresult
        rw [hkept] at hresult
        cases hresult
        exact houtcome
      settled := by
        -- Without an intent the request had a terminal result, so it was not unresolved.
        intro hintent
        obtain ⟨result, hresult, -⟩ := h.settled hintent request hrequest
        rw [hnone] at hresult
        cases hresult
      latched := fun _ _ _ => ⟨kept, hkept⟩
      own := by
        intro other hother
        rw [hkept] at hother
        cases hother
        rw [hafter, hsame] }

/-- **Every write restores the invariant.** -/
theorem Writes.inv {config : HostConfig} {stage : Stage} {w : VmWorld}
    {control : DurableControlState} (h : ControlInv w.control)
    (hwrites : Writes config stage w control) : ControlInv control := by
  cases hwrites with
  | resolve hstage hphase hintent hlive hfresh hrequested hcurrent hresult hjournal =>
      exact .of_recorded rfl (movementResult_eq_some hresult).2 hjournal
  | latch hphase hunlatched hjournal => exact h.of_latch hjournal
  | begin hstage hphase hlive hfresh hconverged hunlatched =>
      exact {
        executing := fun _ _ => ⟨_, rfl, nofun⟩
        settled := nofun
        latched := by
          intro hlatched
          simp [DurableControlState.latched, hunlatched] at hlatched
        own := nofun }
  | release hstage hphase hrequest hjournal => exact .of_recorded rfl rfl hjournal
  | unexecuted hstage hphase hidle hahead hterminal hjournal =>
      exact .of_recorded hidle hterminal hjournal
  | extend hstage hphase hintent => exact h.of_intent hintent
  | restore hstage hphase hintent => exact h.of_intent hintent
  | settle hstage hphase hintent => exact h.of_intent hintent

/-- Clearing the latch restores it too. -/
theorem ControlInv.of_cleared {control : DurableControlState} {live : VirtioMemState} {now : Nat}
    {reason : String} {journal : MemoryRequestJournal} (h : ControlInv control)
    (hcleared : clearedJournal control live now reason = .ok journal) :
    ControlInv ⟨none, none, journal⟩ ∧ journal.request = control.journal.request := by
  unfold clearedJournal at hcleared
  split at hcleared
  · -- An unresolved request gets a terminal result.
    next hunresolved =>
    have hterminal : ∀ result, clearedResult control live now reason = some result →
        result.terminal = true := by
      intro result hresult
      unfold clearedResult at hresult
      split at hresult
      · exact (movementResult_eq_some hresult).2
      · obtain ⟨request, -, rfl⟩ := Option.map_eq_some_iff.mp hresult
        rfl
    split at hcleared
    · next hnone =>
      -- There is always a result for an admitted request.
      rw [Bool.and_eq_true] at hunresolved
      obtain ⟨request, hrequest⟩ := Option.isSome_iff_exists.mp hunresolved.1
      unfold clearedResult movementResult at hnone
      split at hnone <;> simp [hrequest] at hnone
    next result hresult =>
    split at hcleared
    · cases hcleared
    next hrecord =>
    cases hcleared
    exact ⟨.of_recorded rfl (hterminal result hresult) hrecord, (recorded hrecord).2.1⟩
  · next hresolved =>
    cases hcleared
    refine ⟨?_, rfl⟩
    have hsettled : control.journal.Settled := by
      intro request hrequest
      simp only [hrequest, Option.isSome_some, Bool.true_and, Bool.not_eq_true] at hresolved
      cases hresult : control.journal.result with
      | none => simp [hresult] at hresolved
      | some result =>
          refine ⟨result, rfl, ?_⟩
          simpa [hresult] using hresolved
    exact {
      executing := nofun
      settled := fun _ => hsettled
      latched := nofun
      own := h.own }

end VirtioMem.Host
