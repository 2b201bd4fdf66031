import VirtioMem.Host.Protocol

/-!
# The first phase keeps the protocol

`observe` and everything it calls, one specification a function: from a controller that agrees with
what an observer knows, every operation is one the protocol allows, and the controller agrees again
when it returns. An error ends the process, so nothing is asked of one.
-/

namespace VirtioMem.Host

open VirtioMem.Core VirtioMem.Effect VirtioMem.Word

variable {α β : Type} {config : HostConfig} {stage : Stage} {vm : VmController} {w : VmWorld}
  {committed : Nat}

/-- The action keeps the protocol and returns in `Q`. -/
abbrev Ensures (config : HostConfig) (stage : Stage) (action : VmAction α)
    (Q : α → VmController → VmWorld × Nat → Prop) (vm : VmController) (w : VmWorld × Nat) : Prop :=
  Action.wp (vmLaw config stage) action Q (fun _ _ _ => True) vm w

/-! ## The rules of the small steps -/

section Rules

variable {Q : α → VmController → VmWorld × Nat → Prop} {U : Unit → VmController → VmWorld × Nat → Prop}

theorem ensures_bind {action : VmAction α} {next : α → VmAction β}
    {Q : β → VmController → VmWorld × Nat → Prop} {w : VmWorld × Nat}
    (h : Ensures config stage action (fun value vm w => Ensures config stage (next value) Q vm w)
      vm w) : Ensures config stage (action >>= next) Q vm w :=
  (Action.wp_bind action next).mpr h

theorem ensures_get {Q : VmController → VmController → VmWorld × Nat → Prop} {w : VmWorld × Nat}
    (h : Q vm vm w) : Ensures config stage get Q vm w :=
  h

theorem ensures_modify {f : VmController → VmController} {w : VmWorld × Nat}
    {U : PUnit → VmController → VmWorld × Nat → Prop} (h : U () (f vm) w) :
    Ensures config stage (modify f) U vm w :=
  h

/-- An operation that the protocol always allows and that changes nothing it knows. -/
theorem ensures_ask {op : VmOp} {Q : VmAns op → VmController → VmWorld × Nat → Prop}
    (hmay : w.May config stage committed op)
    (h : ∀ answer, Q answer vm (w.next op answer, commit committed op)) :
    Ensures config stage (ask op) Q vm (w, committed) :=
  ⟨hmay, h⟩

theorem ensures_controllerError {answer : Except String α} {w : VmWorld × Nat}
    (h : ∀ value, answer = .ok value → Q value vm w) :
    Ensures config stage (controllerError answer) Q vm w := by
  refine (Action.wp_ofExcept _).mpr ⟨?_, fun _ _ => trivial⟩
  intro value hvalue
  exact h value (Result.mapError_eq_ok.mp hvalue)

theorem ensures_now {Q : Nat → VmController → VmWorld × Nat → Prop} (h : ∀ now, Q now vm (w, committed)) :
    Ensures config stage VmController.now Q vm (w, committed) := by
  apply ensures_bind
  refine ensures_ask (by trivial) fun answer => ?_
  apply ensures_controllerError
  intro now _
  exact h now

theorem ensures_tolerance {Q : Nat → VmController → VmWorld × Nat → Prop}
    (h : ∀ tolerance, Q tolerance vm (w, committed)) :
    Ensures config stage VmController.futureToleranceMillis Q vm (w, committed) := by
  apply ensures_controllerError
  intro tolerance _
  exact h tolerance

theorem ensures_setControl {f : DurableControlState → DurableControlState} {w : VmWorld × Nat}
    (h : U () { vm with control := f vm.control } w) :
    Ensures config stage (VmController.setControl f) U vm w :=
  h

theorem ensures_save (hmay : Writes config stage w vm.control)
    (h : U () vm (w.persist (vm.checkpoint.file vm.control) .written, committed)) :
    Ensures config stage VmController.save U vm (w, committed) := by
  apply ensures_bind
  apply ensures_get
  apply ensures_bind
  refine ensures_ask (by exact hmay) fun saved => ?_
  apply ensures_controllerError
  intro _ hsaved
  cases saved with
  | written => exact h
  | failed error written => cases hsaved

theorem ensures_recordResult {result : MemoryResult} {w : VmWorld × Nat}
    (h : ∀ journal, vm.control.journal.recordResult result = (.ok (), journal) →
      U () { vm with control := { vm.control with journal := journal } } w) :
    Ensures config stage (VmController.recordResult result) U vm w := by
  apply ensures_bind
  apply ensures_get
  apply ensures_bind
  apply ensures_setControl
  apply ensures_controllerError
  intro _ hok
  exact h _ (Prod.ext hok rfl)

theorem ensures_publish {state : VirtioMemState} {refusal : Option MemoryResult}
    (hphase : w.phase = .idle) (h : U () vm (w, committed)) :
    Ensures config stage (VmController.publish state refusal) U vm (w, committed) := by
  apply ensures_bind
  refine ensures_ask (by trivial) fun answer => ?_
  cases answer with
  | error error => exact h
  | ok now => exact ⟨hphase, fun _ => h⟩

theorem ensures_nextOperationId {Q : String → VmController → VmWorld × Nat → Prop}
    {w : VmWorld × Nat} (h : ∀ id counter, Q id { vm with operationCounter := counter } w) :
    Ensures config stage VmController.nextOperationId Q vm w :=
  h _ _

end Rules

/-! ## Agreement -/

/-- Everything but the control state agrees. -/
structure Tracks (config : HostConfig) (vm : VmController) (w : VmWorld) : Prop where
  configured : vm.config = config
  inv : ControlInv w.control
  remembered : vm.lastCharge.map Prod.fst = w.remembered
  outstanding : vm.outstandingGrowth = w.outstanding

/-- A controller between two operations agrees with what an observer knows. -/
structure Coupled (config : HostConfig) (vm : VmController) (w : VmWorld) : Prop
    extends Tracks config vm w where
  control : vm.control = w.control
  phase : w.phase = .idle

/-- Nothing that was read is forgotten. -/
structure Kept (vm vm' : VmController) (w w' : VmWorld) : Prop where
  live : w'.live = w.live
  fresh : w'.fresh = w.fresh
  guest : w'.guest = w.guest
  remembered : w'.remembered = w.remembered
  charge : w'.charge = w.charge
  lastCharge : vm'.lastCharge = vm.lastCharge

/-- The writes of the first phase leave the growth still to come alone. -/
theorem Writes.outstanding {control : DurableControlState}
    (h : Writes config .observing w control) :
    w.live.map (VmController.outstandingOf control) = w.outstanding := by
  unfold VmWorld.outstanding VmController.outstandingOf DurableControlState.intentTarget
  cases h with
  | resolve hstage hphase hintent hlive hfresh hrequested hcurrent =>
      simp only [hlive, hintent, Option.map_some, Option.map_none, Option.getD_some,
        Option.getD_none, Option.some.injEq]
      omega
  | latch => rfl
  | begin hstage => cases hstage
  | release hstage => cases hstage
  | unexecuted hstage => cases hstage
  | extend hstage hphase hintent hlive hfresh howned hdirection hlower =>
      simp only [hlive, hintent, Option.map_some, Option.getD_some, Option.some.injEq]
      omega
  | restore hstage hphase hintent hlive hfresh hlower =>
      simp only [hlive, hintent, Option.map_some, Option.getD_some, Option.some.injEq]
      omega
  | settle hstage hphase hintent hlive hfresh howned =>
      simp only [hlive, hintent, Option.map_some, Option.getD_some, Option.some.injEq,
        VmController.settlement]
      omega

/-- They do not start anything either. -/
theorem Writes.idle {control : DurableControlState} (h : Writes config .observing w control)
    (hidle : w.control.intent = none) : control.intent = none := by
  cases h with
  | resolve => rfl
  | latch => exact hidle
  | begin hstage => cases hstage
  | release hstage => cases hstage
  | unexecuted hstage => cases hstage
  | extend hstage hphase hintent => rw [hidle] at hintent; cases hintent
  | restore hstage hphase hintent => rw [hidle] at hintent; cases hintent
  | settle hstage hphase hintent => rw [hidle] at hintent; cases hintent

/-- A write that starts nothing only replaces the file. -/
theorem persist_kept {file : CheckpointFile}
    (h : w.control.intent = none → file.control.intent = none) :
    w.persist file .written = { w with disk := some file, phase := .idle } := by
  unfold VmWorld.persist VmWorld.store
  cases hintent : w.control.intent with
  | some intent => simp
  | none =>
      have hzero : file.control.intentTarget = 0 := by
        simp [DurableControlState.intentTarget, h hintent]
      simp [h hintent, hzero]

section Saving

variable {U : Unit → VmController → VmWorld × Nat → Prop}

/-- A write that starts nothing and leaves the growth still to come alone. -/
theorem ensures_saveKept (h : Tracks config vm w) (hwrites : Writes config stage w vm.control)
    (hidle : w.control.intent = none → vm.control.intent = none)
    (houtstanding : w.live.map (VmController.outstandingOf vm.control) = w.outstanding)
    (hU : ∀ w', Coupled config vm w' → Kept vm vm w w' → U () vm (w', committed)) :
    Ensures config stage VmController.save U vm (w, committed) := by
  apply ensures_save hwrites
  rw [persist_kept hidle]
  apply hU
  · exact {
      configured := h.configured
      inv := hwrites.inv h.inv
      remembered := h.remembered
      outstanding := h.outstanding.trans houtstanding.symm
      control := rfl
      phase := rfl }
  · exact ⟨rfl, rfl, rfl, rfl, rfl, rfl⟩

theorem ensures_saveObserving (h : Tracks config vm w)
    (hwrites : Writes config .observing w vm.control)
    (hU : ∀ w', Coupled config vm w' → Kept vm vm w w' → U () vm (w', committed)) :
    Ensures config .observing VmController.save U vm (w, committed) :=
  ensures_saveKept h hwrites hwrites.idle hwrites.outstanding hU

theorem ensures_recordUncertain {reason : String} {w : VmWorld × Nat}
    (h : ∀ journal, Latches vm.control.journal journal →
      U () { vm with control := { vm.control with journal := journal } } w) :
    Ensures config stage (VmController.recordUncertain reason) U vm w := by
  obtain ⟨w, committed⟩ := w
  apply ensures_bind
  apply ensures_get
  split
  · next request hrequest hresult =>
      apply ensures_bind
      apply ensures_now
      intro now
      apply ensures_recordResult
      intro journal hjournal
      exact h journal (.inr ⟨request, now, reason, hrequest, hresult, hjournal⟩)
  · next hother =>
      apply h vm.control.journal
      refine .inl ⟨rfl, fun request hrequest => ?_⟩
      -- A request without a result is the other case.
      cases hresult : vm.control.journal.result with
      | none => exact absurd hresult (hother request hrequest)
      | some result => rfl

/-- A latch keeps the intent and everything that was read. -/
theorem ensures_latch {reason : String} (h : Coupled config vm w)
    (hU : ∀ vm' w', Coupled config vm' w' → Kept vm vm' w w' → vm'.control.latched = true →
      vm'.control.intent = vm.control.intent → U () vm' (w', committed)) :
    Ensures config stage (VmController.latch reason) U vm (w, committed) := by
  apply ensures_bind
  apply ensures_get
  split
  · next hlatched => exact hU vm w h ⟨rfl, rfl, rfl, rfl, rfl, rfl⟩ hlatched rfl
  · next hunlatched =>
      have hnone : w.control.latchReason = none := by
        rw [← h.control]
        simpa [DurableControlState.latched] using hunlatched
      apply ensures_bind
      apply ensures_setControl
      apply ensures_bind
      apply ensures_recordUncertain
      intro journal hjournal
      have hjournal' : Latches w.control.journal journal := h.control ▸ hjournal
      have hwrites := @Writes.latch config stage w (boundedReason reason) journal h.phase hnone hjournal'
      have htracks : Tracks config { vm with control := { vm.control with
          latchReason := some (boundedReason reason), journal := journal } } w :=
        ⟨h.configured, h.inv, h.remembered, h.outstanding⟩
      apply ensures_saveKept htracks
      · rw [h.control]; exact hwrites
      · rw [h.control]; exact id
      · rw [h.control]; rfl
      · intro w' hcoupled hkept
        exact hU _ w' hcoupled ⟨hkept.live, hkept.fresh, hkept.guest, hkept.remembered, hkept.charge,
          rfl⟩ rfl rfl

end Saving

/-! ## After a valid reading -/

/-- The controller agrees, the device was read as `state`, and the pool is charged what that says. -/
structure Seen (config : HostConfig) (state : VirtioMemState) (charge : Nat × Nat)
    (vm : VmController) (w : VmWorld) : Prop extends Coupled config vm w where
  live : w.live = some state
  last : vm.lastCharge = some charge
  charged : w.charge = some charge.1

section Pending

variable {state : VirtioMemState} {charge : Nat × Nat} {vm' : VmController} {w' : VmWorld}
  {intent : CommandIntent} {Q : Step → VmController → VmWorld × Nat → Prop}

theorem Seen.kept (h : Seen config state charge vm w) (hcoupled : Coupled config vm' w')
    (hkept : Kept vm vm' w w') : Seen config state charge vm' w' :=
  ⟨hcoupled, hkept.live.trans h.live, hkept.lastCharge.trans h.last, hkept.charge.trans h.charged⟩

/-- Most of what a controller remembers takes no part in the agreement. -/
theorem Seen.other (h : Seen config state charge vm w) (hconfig : vm'.config = vm.config)
    (hcontrol : vm'.control = vm.control) (hlast : vm'.lastCharge = vm.lastCharge)
    (houtstanding : vm'.outstandingGrowth = vm.outstandingGrowth) :
    Seen config state charge vm' w where
  configured := hconfig.trans h.configured
  inv := h.inv
  remembered := by rw [hlast]; exact h.remembered
  outstanding := houtstanding.trans h.outstanding
  control := hcontrol.trans h.control
  phase := h.phase
  live := h.live
  last := hlast.trans h.last
  charged := h.charged

/-- A command only makes the reading old. -/
theorem Seen.command (h : Seen config state charge vm w) (answer : Except ResizeSinkError Unit) :
    Seen config state charge vm (w.command answer) :=
  ⟨⟨⟨h.configured, h.inv, h.remembered, h.outstanding⟩, h.control, h.phase⟩, h.live, h.last, h.charged⟩

theorem ensures_latchSeen {U : Unit → VmController → VmWorld × Nat → Prop} {reason : String}
    (h : Seen config state charge vm w)
    (hU : ∀ vm' w', Seen config state charge vm' w' → U () vm' (w', committed)) :
    Ensures config stage (VmController.latch reason) U vm (w, committed) :=
  ensures_latch h.toCoupled fun vm' w' hcoupled hkept _ _ => hU vm' w' (h.kept hcoupled hkept)

/-- A settlement is written before it is sent. -/
theorem ensures_settleShort (h : Seen config state charge vm w) (hfresh : w.fresh = true)
    (hpending : state.requestedBytes ≠ state.currentBytes) (hintent : vm.control.intent = some intent)
    (howned : intent.targetBytes = state.requestedBytes)
    (hQ : ∀ vm' w', Seen config state charge vm' w' → Q .wait vm' (w', committed)) :
    Ensures config .observing (VmController.settleShort intent.direction state) Q vm
      (w, committed) := by
  apply ensures_bind
  refine ensures_ask (by trivial) fun stopped => ?_
  -- A stop requested meanwhile leaves the command where it is.
  split
  · exact hQ vm w h
  apply ensures_bind
  apply ensures_nextOperationId
  intro operationId counter
  apply ensures_bind
  apply ensures_now
  intro now
  apply ensures_bind
  apply ensures_setControl
  have hsaved : w.control.intent = some intent := by rw [← h.control]; exact hintent
  have hwrites := @Writes.settle config .observing w intent state operationId now intent.direction
    rfl h.phase hsaved h.live hfresh howned rfl
  have htracks : Tracks config { vm with operationCounter := counter, control := { vm.control with
      intent := some (VmController.settlement operationId now intent.direction state
        vm.control.intent) } } w :=
    ⟨h.configured, h.inv, h.remembered, h.outstanding⟩
  apply ensures_bind
  apply ensures_saveObserving htracks
  · rw [hintent, h.control]
    exact hwrites
  intro w' hcoupled hkept
  have hseen := h.kept hcoupled ⟨hkept.live, hkept.fresh, hkept.guest, hkept.remembered,
    hkept.charge, rfl⟩
  apply ensures_bind
  apply ensures_modify
  apply ensures_bind
  refine ensures_ask ?_ fun command => ?_
  · refine ⟨hseen.phase, hseen.live, hkept.fresh.trans hfresh, hpending,
      VmController.settlement operationId now intent.direction state vm.control.intent, ?_, rfl,
      .settle rfl ?_⟩
    · rw [← hcoupled.control]
    · unfold VmController.settlement
      dsimp only
      split <;> exact nofun
  have hsent := hseen.command command
  -- Every error latches, a refusal included.
  cases command with
  | ok _ => exact hQ _ _ (hsent.other rfl rfl rfl rfl)
  | error error =>
      apply ensures_bind
      refine ensures_latchSeen (hsent.other rfl rfl rfl rfl) fun vm' w' hlatched => ?_
      exact hQ vm' w' hlatched

/-! ## A resize that is under way -/

theorem ensures_commandStalled {Q : Bool → VmController → VmWorld × Nat → Prop}
    (h : ∀ stalled progress, Q stalled { vm with pendingProgress := progress } (w, committed)) :
    Ensures config stage (VmController.commandStalled state) Q vm (w, committed) := by
  apply ensures_bind
  apply ensures_get
  apply ensures_bind
  refine ensures_ask (by trivial) fun now => ?_
  split
  · split
    · exact h _ vm.pendingProgress
    · exact h false _
  · exact h false _

theorem ensures_pendingElapsed {Q : Bool → VmController → VmWorld × Nat → Prop}
    (h : ∀ elapsed since, Q elapsed { vm with pendingSince := since } (w, committed)) :
    Ensures config stage VmController.pendingElapsed Q vm (w, committed) := by
  apply ensures_bind
  apply ensures_get
  split
  · exact h true vm.pendingSince
  apply ensures_bind
  refine ensures_ask (by trivial) fun answer => ?_
  split
  · exact h true vm.pendingSince
  apply ensures_bind
  apply ensures_bind
  apply ensures_get
  split
  · apply ensures_bind
    refine ensures_ask (by trivial) fun now => ?_
    exact h _ vm.pendingSince
  · apply ensures_bind
    refine ensures_ask (by trivial) fun since => ?_
    apply ensures_bind
    apply ensures_modify
    apply ensures_bind
    refine ensures_ask (by trivial) fun now => ?_
    exact h _ _

theorem ensures_minimumStalled {Q : Bool → VmController → VmWorld × Nat → Prop}
    (h : ∀ stalled, Q stalled vm (w, committed)) :
    Ensures config stage VmController.minimumStalled Q vm (w, committed) := by
  apply ensures_bind
  apply ensures_get
  split
  · exact h false
  · apply ensures_bind
    refine ensures_ask (by trivial) fun now => ?_
    exact h _

/-- The floor leaves the guest its minimum. -/
theorem minRam_le_shrinkFloor {block base : Nat} (hblock : 0 < block) :
    (config.minRam : Nat) ≤ base + VmController.shrinkFloor config block base := by
  have hround := @le_divCeil_mul ((config.minRam : Nat) - base) block hblock
  have hrange := U64.le_maximum config.minRam
  unfold VmController.shrinkFloor saturatingMul
  omega

theorem extensionTarget_eq_some {stepBytes floor target : Nat}
    (h : VmController.extensionTarget state stepBytes floor = some target) :
    target < state.requestedBytes ∧ floor ≤ target := by
  obtain ⟨hsome, hlower⟩ := Option.filter_eq_some_iff.mp h
  obtain ⟨stepped, -, rfl⟩ := Option.map_eq_some_iff.mp hsome
  exact ⟨of_decide_eq_true hlower, le_max_right _ _⟩

/-- An extension is written before it is sent, and taken back when it was refused. -/
theorem ensures_sendExtension {operationId : String} {target stepBytes : Nat}
    {envelope : RawTelemetryEnvelope} (h : Seen config state charge vm w)
    (hfresh : w.fresh = true) (hpending : state.requestedBytes ≠ state.currentBytes)
    (hintent : vm.control.intent = some intent)
    (howned : intent.targetBytes = state.requestedBytes) (hdirection : intent.direction = .shrink)
    (hlower : target < state.requestedBytes) (hguest : w.guest = some envelope)
    (hcounted : state.currentBytes ≤ envelope.memory.physicalTotalBytes)
    (hminimum : (config.minRam : Nat) ≤
      envelope.memory.physicalTotalBytes - state.currentBytes + target)
    (hQ : ∀ vm' w', Seen config state charge vm' w' → Q .wait vm' (w', committed)) :
    Ensures config .observing (VmController.sendExtension state operationId target stepBytes) Q vm
      (w, committed) := by
  have hsaved : w.control.intent = some intent := by rw [← h.control]; exact hintent
  apply ensures_bind
  apply ensures_setControl
  -- The lowered target is written first.
  have hwrites := @Writes.extend config .observing w intent state target rfl h.phase hsaved h.live
    hfresh howned hdirection hlower
  have htracks : Tracks config { vm with control := { vm.control with
      intent := vm.control.intent.map fun intent => { intent with targetBytes := target } } } w :=
    ⟨h.configured, h.inv, h.remembered, h.outstanding⟩
  apply ensures_bind
  apply ensures_saveObserving htracks
  · rw [hintent, h.control]
    exact hwrites
  intro w' hcoupled hkept
  have hseen := h.kept hcoupled ⟨hkept.live, hkept.fresh, hkept.guest, hkept.remembered,
    hkept.charge, rfl⟩
  have hextended : w'.control.intent = some { intent with targetBytes := target } := by
    rw [← hcoupled.control]
    simp [hintent]
  have hfresh' := hkept.fresh.trans hfresh
  apply ensures_bind
  apply ensures_modify
  apply ensures_bind
  refine ensures_ask ?_ fun command => ?_
  · exact ⟨hseen.phase, hseen.live, hfresh', hpending, _, hextended, rfl,
      .extend hdirection hlower (hkept.guest.trans hguest) hcounted hminimum⟩
  have hsent := hseen.command command
  -- A refusal puts the target back; an unknown outcome latches.
  match command with
  | .ok _ => exact hQ _ _ (hsent.other rfl rfl rfl rfl)
  | .error (.rejected reason) =>
      apply ensures_bind
      apply ensures_setControl
      have hrefused : (w'.command (.error (.rejected reason))).fresh = true := by
        simp [VmWorld.command, VmWorld.refused, hfresh']
      have hback := @Writes.restore config .observing (w'.command (.error (.rejected reason))) _ state
        rfl hsent.phase hextended hsent.live hrefused hlower.le
      apply ensures_bind
      refine ensures_saveObserving ⟨hsent.configured, hsent.inv, hsent.remembered, hsent.outstanding⟩ ?_ ?_
      · rw [show (w'.command (.error (.rejected reason))).control = w'.control from rfl,
          ← hcoupled.control] at hback
        dsimp only
        rw [hintent]
        exact hback
      · intro w'' hcoupled' hkept'
        exact hQ _ _ (hsent.kept hcoupled' ⟨hkept'.live, hkept'.fresh, hkept'.guest,
          hkept'.remembered, hkept'.charge, rfl⟩)
  | .error (.commandUnknown reason) =>
      apply ensures_bind
      refine ensures_latchSeen (hsent.other rfl rfl rfl rfl) fun vm' w' hlatched => ?_
      exact hQ vm' w' hlatched

theorem ensures_extendShrink {envelope : RawTelemetryEnvelope} {base : Nat}
    (h : Seen config state charge vm w) (hvalid : state.Valid) (hfresh : w.fresh = true)
    (hpending : state.requestedBytes ≠ state.currentBytes)
    (hintent : vm.control.intent = some intent)
    (howned : intent.targetBytes = state.requestedBytes) (hdirection : intent.direction = .shrink)
    (hguest : w.guest = some envelope)
    (hbase : envelope.memory.physicalTotalBytes = base + state.currentBytes)
    (hQ : ∀ vm' w', Seen config state charge vm' w' → Q .wait vm' (w', committed)) :
    Ensures config .observing (VmController.extendShrink state base) Q vm (w, committed) := by
  have hsettle : ∀ {vm'' : VmController}, Seen config state charge vm'' w →
      vm''.control.intent = some intent →
      Ensures config .observing (VmController.settleShort .shrink state) Q vm'' (w, committed) := by
    intro vm'' hseen hintent'
    rw [← hdirection]
    exact ensures_settleShort hseen hfresh hpending hintent' howned hQ
  apply ensures_bind
  apply ensures_get
  rw [hintent]
  dsimp only
  split
  · exact hsettle h hintent
  apply ensures_bind
  apply ensures_modify
  have hseen : Seen config state charge { vm with extension := none } w := h.other rfl rfl rfl rfl
  split
  · -- At the floor: only a request that has been stalled there is released.
    apply ensures_bind
    apply ensures_minimumStalled
    intro stalled
    split
    · exact hsettle hseen hintent
    · exact hQ _ _ hseen
  next target htarget =>
  obtain ⟨hlower, hfloor⟩ := extensionTarget_eq_some htarget
  apply ensures_bind
  refine ensures_ask (by trivial) fun stopped => ?_
  split
  · exact hQ _ _ hseen
  have hminimum := @minRam_le_shrinkFloor config _ base hvalid.block_pos
  rw [h.configured] at hfloor
  exact ensures_sendExtension hseen hfresh hpending hintent howned hdirection hlower hguest
    (by omega) (by omega) hQ

theorem ensures_observeShrink (h : Seen config state charge vm w) (hvalid : state.Valid)
    (hfresh : w.fresh = true) (hpending : state.requestedBytes ≠ state.currentBytes)
    (hintent : vm.control.intent = some intent)
    (howned : intent.targetBytes = state.requestedBytes) (hdirection : intent.direction = .shrink)
    (hQ : ∀ vm' w', Seen config state charge vm' w' → Q .wait vm' (w', committed)) :
    Ensures config .observing (VmController.observeShrink state) Q vm (w, committed) := by
  apply ensures_bind
  refine ensures_ask (by trivial) fun answer => ?_
  have hheard : Seen config state charge vm (w.hear answer) :=
    ⟨⟨⟨h.configured, h.inv, h.remembered, h.outstanding⟩, h.control, h.phase⟩, h.live, h.last, h.charged⟩
  match answer with
  | .error error => exact hQ _ _ hheard
  | .ok envelope =>
      dsimp only
      split
      · have hsettle := @ensures_settleShort config vm _ committed state charge intent Q hheard hfresh
          hpending hintent howned hQ
        rw [hdirection] at hsettle
        exact hsettle
      split
      · exact hQ _ _ hheard
      next base hbase =>
      apply ensures_bind
      apply ensures_commandStalled
      intro stalled progress
      have hseen : Seen config state charge { vm with pendingProgress := progress } _ :=
        hheard.other rfl rfl rfl rfl
      split
      · exact ensures_extendShrink hseen hvalid hfresh hpending hintent howned hdirection rfl
          (checkedSub_eq_some.mp hbase) hQ
      · exact hQ _ _ hseen

theorem ensures_observeGrow (h : Seen config state charge vm w) (hfresh : w.fresh = true)
    (hpending : state.requestedBytes ≠ state.currentBytes)
    (hintent : vm.control.intent = some intent)
    (howned : intent.targetBytes = state.requestedBytes) (hdirection : intent.direction = .grow)
    (hQ : ∀ vm' w', Seen config state charge vm' w' → Q .wait vm' (w', committed)) :
    Ensures config .observing (VmController.observeGrow state intent) Q vm (w, committed) := by
  apply ensures_bind
  apply ensures_get
  split
  · apply ensures_bind
    apply ensures_commandStalled
    intro stalled progress
    have hseen : Seen config state charge { vm with pendingProgress := progress } w :=
      h.other rfl rfl rfl rfl
    split
    · rw [← hdirection]
      exact ensures_settleShort hseen hfresh hpending hintent howned hQ
    · exact hQ _ _ hseen
  · exact hQ _ _ h

/-- A settlement past its deadline latches and stops. -/
theorem ensures_deadline {operation : String} (h : Seen config state charge vm w)
    (hQ : ∀ step vm' w', Seen config state charge vm' w' → Q step vm' (w', committed)) :
    Ensures config .observing (do
      if ← VmController.pendingElapsed then
        let error ← VmController.convergenceTimeout operation
        return .stop error
      else return .wait) Q vm (w, committed) := by
  apply ensures_bind
  apply ensures_pendingElapsed
  intro elapsed since
  have hseen : Seen config state charge { vm with pendingSince := since } w :=
    h.other rfl rfl rfl rfl
  split
  · apply ensures_bind
    apply ensures_bind
    refine ensures_latchSeen hseen fun vm' w' hlatched => ?_
    exact hQ _ _ _ hlatched
  · exact hQ _ _ _ hseen

/-- **A pending resize** is only touched when the recorded command owns it. -/
theorem ensures_observePending (h : Seen config state charge vm w) (hvalid : state.Valid)
    (hfresh : w.fresh = true) (hpending : state.requestedBytes ≠ state.currentBytes)
    (hQ : ∀ step vm' w', Seen config state charge vm' w' → Q step vm' (w', committed)) :
    Ensures config .observing (VmController.observePending state) Q vm (w, committed) := by
  apply ensures_bind
  apply ensures_get
  split
  · exact hQ _ _ _ h
  next intent howner =>
  obtain ⟨hintent, howned⟩ := Option.filter_eq_some_iff.mp howner
  have howned := eq_of_beq howned
  dsimp only
  split
  · next hdirection =>
      split
      · exact ensures_observeGrow h hfresh hpending hintent howned hdirection (hQ .wait)
      · exact hQ _ _ _ h
  · next hdirection =>
      split
      · exact ensures_observeShrink h hvalid hfresh hpending hintent howned hdirection (hQ .wait)
      · exact hQ _ _ _ h
  · exact ensures_deadline h hQ
  · exact ensures_deadline h hQ

end Pending

/-! ## A converged device -/

section Converged

variable {state : VirtioMemState} {charge : Nat × Nat} {vm' : VmController} {w' : VmWorld}
  {intent : CommandIntent} {U : Unit → VmController → VmWorld × Nat → Prop}
  {Q : Observed → VmController → VmWorld × Nat → Prop}

/-- Nothing is under way on a converged device, unless the VM is latched. -/
def Resolved (state : VirtioMemState) (charge : Nat × Nat) (vm : VmController) : Prop :=
  state.requestedBytes = state.currentBytes → vm.control.latched = false →
    vm.control.intent = none ∧ charge.1 = state.currentBytes

theorem ensures_resolveConverged (h : Seen config state charge vm w) (hfresh : w.fresh = true)
    (hintent : vm.control.intent = some intent)
    (hrequested : state.requestedBytes = intent.targetBytes)
    (hcurrent : state.currentBytes = intent.targetBytes)
    (hU : ∀ vm' w', Seen config state charge vm' w' → w'.fresh = true →
      vm'.control.intent = none → U () vm' (w', committed)) :
    Ensures config .observing (VmController.resolveConverged intent state) U vm (w, committed) := by
  have hsaved : w.control.intent = some intent := by rw [← h.control]; exact hintent
  obtain ⟨request, hrequest, -⟩ := h.inv.executing intent hsaved
  apply ensures_bind
  apply ensures_setControl
  apply ensures_bind
  apply ensures_now
  intro now
  apply ensures_bind
  apply ensures_get
  split
  · next hnone =>
      -- An intent has a request, so there is always a result.
      dsimp only [movementResult] at hnone
      rw [h.control, hrequest] at hnone
      cases hnone
  next result hresult =>
  apply ensures_bind
  apply ensures_modify
  apply ensures_bind
  apply ensures_recordResult
  intro journal hjournal
  dsimp only at hresult hjournal
  rw [h.control] at hresult hjournal
  have hwrites := @Writes.resolve config .observing w intent state now result journal rfl h.phase
    hsaved h.live hfresh hrequested hcurrent hresult hjournal
  refine ensures_saveObserving ⟨h.configured, h.inv, h.remembered, h.outstanding⟩ ?_ ?_
  · dsimp only
    rw [h.control]
    exact hwrites
  · intro w' hcoupled hkept
    refine hU _ _ (h.kept hcoupled ?_) (hkept.fresh.trans hfresh) rfl
    exact ⟨hkept.live, hkept.fresh, hkept.guest, hkept.remembered, hkept.charge, rfl⟩

/-- **What is recorded is resolved first**: by its result, or by a latch. -/
theorem ensures_resolveIntent (h : Seen config state charge vm w) (hfresh : w.fresh = true)
    (hcharge : charge.1 = VmController.chargeOf vm.control state)
    (hU : ∀ vm' w', Seen config state charge vm' w' → w'.fresh = true →
      Resolved state charge vm' → U () vm' (w', committed)) :
    Ensures config .observing (VmController.resolveIntent state) U vm (w, committed) := by
  have hlatch : ∀ reason,
      Ensures config .observing (VmController.latch reason) U vm (w, committed) := by
    intro reason
    refine ensures_latch h.toCoupled fun vm' w' hcoupled hkept hlatched _ => ?_
    refine hU vm' w' (h.kept hcoupled hkept) (hkept.fresh.trans hfresh) fun _ hunlatched => ?_
    rw [hlatched] at hunlatched
    cases hunlatched
  have hkeep : (state.requestedBytes = state.currentBytes → vm.control.intent = none) →
      U () vm (w, committed) := by
    intro hnone
    refine hU vm w h hfresh fun hconverged _ => ⟨hnone hconverged, ?_⟩
    simp [hcharge, VmController.chargeOf, DurableControlState.intentTarget, hnone hconverged,
      hconverged]
  apply ensures_bind
  apply ensures_get
  cases hintent : vm.control.intent with
  | none =>
      unfold commandOwnership
      dsimp only
      split_ifs
      · exact hkeep fun _ => hintent
      · exact hkeep fun _ => hintent
  | some intent =>
      unfold commandOwnership
      dsimp only
      split_ifs with hrequested hcurrent hprior
      · refine ensures_resolveConverged h hfresh hintent hrequested hcurrent ?_
        intro vm' w' hseen hfresh' hnone
        refine hU vm' w' hseen hfresh' fun _ _ => ⟨hnone, ?_⟩
        simp [hcharge, VmController.chargeOf, DurableControlState.intentTarget, hintent,
          hrequested, hcurrent]
      · exact hkeep fun hconverged => absurd (hconverged ▸ hrequested) hcurrent
      · exact hlatch _
      · exact hlatch _

theorem ensures_widenIfDue {Q : Step → VmController → VmWorld × Nat → Prop}
    (h : Seen config state charge vm w) (hfresh : w.fresh = true)
    (hconverged : state.requestedBytes = state.currentBytes) (hresolved : Resolved state charge vm)
    (hwait : ∀ vm' w', Seen config state charge vm' w' → w'.fresh = true →
      Resolved state charge vm' → Q .wait vm' (w', committed))
    (hstop : ∀ error vm' w', Seen config state charge vm' w' → Q (.stop error) vm' (w', committed)) :
    Ensures config .observing (VmController.widenIfDue state) Q vm (w, committed) := by
  apply ensures_bind
  apply ensures_get
  split
  swap
  · exact hwait _ _ h hfresh hresolved
  apply ensures_bind
  apply ensures_modify
  apply ensures_bind
  apply ensures_get
  have hseen : Seen config state charge { vm with widenDue := false } w := h.other rfl rfl rfl rfl
  split
  · exact hwait _ _ hseen hfresh hresolved
  next hunlatched =>
  simp only [Bool.or_eq_true, not_or, Bool.not_eq_true] at hunlatched
  apply ensures_bind
  refine ensures_ask (by trivial) fun stopped => ?_
  split
  · exact hwait _ _ hseen hfresh hresolved
  apply ensures_bind
  apply ensures_modify
  apply ensures_bind
  have hnone := (hresolved hconverged hunlatched.1).1
  refine ensures_ask ⟨h.phase, h.live, hfresh, hconverged, h.control ▸ hnone⟩ fun command => ?_
  match command with
  | .ok _ => exact hwait _ _ (hseen.other rfl rfl rfl rfl) hfresh hresolved
  | .error (.rejected _) => exact hwait _ _ (hseen.other rfl rfl rfl rfl) hfresh hresolved
  | .error (.commandUnknown reason) =>
      have hold : Seen config state charge { vm with widenDue := false, widened := true }
          { w with fresh := false } :=
        ⟨⟨⟨h.configured, h.inv, h.remembered, h.outstanding⟩, h.control, h.phase⟩, h.live, h.last,
          h.charged⟩
      apply ensures_bind
      refine ensures_latchSeen hold fun vm' w' hlatched => ?_
      exact hstop _ _ _ hlatched

theorem ensures_forwardTelemetry {envelope : RawTelemetryEnvelope} (hU : U () vm (w, committed)) :
    Ensures config stage (VmController.forwardTelemetry envelope) U vm (w, committed) := by
  apply ensures_bind
  apply ensures_get
  split
  · exact hU
  · apply ensures_bind
    refine ensures_ask (by trivial) fun answer => ?_
    exact hU

theorem ensures_readRequest {Q : Option (MemoryRequest × Nat) → VmController → VmWorld × Nat → Prop}
    (h : Seen config state charge vm w) (hfresh : w.fresh = true)
    (hnone : ∀ w', Seen config state charge vm w' → Q none vm (w', committed))
    (hsome : ∀ request base envelope w', Seen config state charge vm w' → w'.fresh = true →
      w'.guest = some envelope → envelope.request = some request →
      envelope.memory.physicalTotalBytes = base + state.currentBytes →
      Q (some (request, base)) vm (w', committed)) :
    Ensures config stage (VmController.readRequest state) Q vm (w, committed) := by
  apply ensures_bind
  refine ensures_ask (by trivial) fun answer => ?_
  have hheard : Seen config state charge vm (w.hear answer) :=
    ⟨⟨⟨h.configured, h.inv, h.remembered, h.outstanding⟩, h.control, h.phase⟩, h.live, h.last, h.charged⟩
  match answer with
  | .error error => exact hnone _ hheard
  | .ok envelope =>
      apply ensures_bind
      apply ensures_forwardTelemetry
      show Q _ vm (w.hear (.ok envelope), committed)
      cases hbase : checkedSub envelope.memory.physicalTotalBytes state.currentBytes with
      | none => exact hnone _ hheard
      | some base =>
          cases hrequest : envelope.request with
          | none => exact hnone _ hheard
          | some request =>
              exact hsome request base envelope _ hheard hfresh rfl hrequest
                (checkedSub_eq_some.mp hbase)

/-- What justifies executing a request: the device and the guest as they were read, a VM with nothing
under way, and a journal that admits the request as a new one. -/
structure ReadyFor (config : HostConfig) (ready : Ready) (w : VmWorld) : Prop where
  live : w.live = some ready.state
  fresh : w.fresh = true
  valid : ready.state.Valid
  converged : ready.state.requestedBytes = ready.state.currentBytes
  unlatched : w.control.latchReason = none
  idle : w.control.intent = none
  settled : w.control.journal.Settled
  ahead : w.control.journal.Ahead ready.request
  admission : ready.admission = .new
  guest : ∃ envelope, w.guest = some envelope ∧ envelope.request = some ready.request ∧
    envelope.memory.physicalTotalBytes = ready.baseRam + ready.state.currentBytes
  remembered : w.remembered = some ready.state.currentBytes

/-- A request becomes ready only as a new one: a replay without a result would need an intent. -/
theorem ensures_admission {held : Observed} {request : MemoryRequest} {base : Nat}
    {envelope : RawTelemetryEnvelope} (h : Seen config state charge vm w) (hvalid : state.Valid)
    (hfresh : w.fresh = true) (hconverged : state.requestedBytes = state.currentBytes)
    (hresolved : Resolved state charge vm) (hguest : w.guest = some envelope)
    (hrequest : envelope.request = some request)
    (hbase : envelope.memory.physicalTotalBytes = base + state.currentBytes)
    (hheld : Q held vm (w, committed))
    (hready : ∀ ready, ReadyFor config ready w → Q (.ready ready) vm (w, committed)) :
    Ensures config stage (VmController.admission state held request base) Q vm (w, committed) := by
  apply ensures_bind
  apply ensures_now
  intro now
  apply ensures_bind
  apply ensures_tolerance
  intro tolerance
  apply ensures_bind
  apply ensures_get
  dsimp only
  split
  · apply ensures_bind
    apply ensures_publish h.phase
    exact hheld
  next admission hadmitted =>
  split
  · apply ensures_bind
    apply ensures_publish h.phase
    exact hheld
  next hreplayed =>
  split
  · apply ensures_bind
    apply ensures_publish h.phase
    exact hheld
  next hnew =>
  have hinv : ControlInv vm.control := h.control ▸ h.inv
  cases admission with
  | replay =>
      -- The journal holds the request without a result, so an unlatched VM has an intent.
      have hnone : vm.control.journal.result = none := by
        cases hresult : vm.control.journal.result with
        | none => rfl
        | some result => simp [hresult] at hreplayed
      obtain ⟨-, hheldrequest⟩ := MemoryRequestJournal.admit_replay (Prod.ext hadmitted rfl)
      have hunlatched : vm.control.latched = false := by
        rw [← Bool.not_eq_true]
        intro hlatched
        obtain ⟨result, hresult⟩ := hinv.latched hlatched request hheldrequest
        rw [hnone] at hresult
        cases hresult
      obtain ⟨result, hresult, -⟩ :=
        hinv.settled (hresolved hconverged hunlatched).1 request hheldrequest
      rw [hnone] at hresult
      cases hresult
  | new =>
      have hunlatched : vm.control.latched = false := by simpa using hnew
      obtain ⟨hidle, hcharge⟩ := hresolved hconverged hunlatched
      obtain ⟨-, -, hsettled, hahead⟩ := MemoryRequestJournal.admit_new (Prod.ext hadmitted rfl)
      apply hready
      rw [h.control] at hidle hsettled hahead hunlatched
      exact {
        live := h.live
        fresh := hfresh
        valid := hvalid
        converged := hconverged
        unlatched := by simpa [DurableControlState.latched] using hunlatched
        idle := hidle
        settled := hsettled
        ahead := hahead
        admission := rfl
        guest := ⟨envelope, hguest, hrequest, hbase⟩
        remembered := by rw [← h.remembered, h.last, Option.map_some, hcharge] }

/-- What an observation leaves behind. -/
structure Reported (config : HostConfig) (seen : Observed) (vm : VmController) (w : VmWorld) : Prop
    extends Coupled config vm w where
  charged : w.charge = w.remembered
  held : ∀ charge, seen = .held charge → charge = vm.lastCharge
  ready : ∀ ready, seen = .ready ready → ReadyFor config ready w

theorem Seen.charged_remembered (h : Seen config state charge vm w) : w.charge = w.remembered := by
  rw [h.charged, ← h.remembered, h.last, Option.map_some]

theorem Seen.held (h : Seen config state charge vm w) :
    Reported config (.held (some charge)) vm w :=
  ⟨h.toCoupled, h.charged_remembered, by rintro _ ⟨⟩; exact h.last.symm, nofun⟩

theorem Seen.stopping (h : Seen config state charge vm w) (error : HostRuntimeError) :
    Reported config (.stop error) vm w :=
  ⟨h.toCoupled, h.charged_remembered, nofun, nofun⟩

theorem ensures_observeConverged (h : Seen config state charge vm w) (hvalid : state.Valid)
    (hfresh : w.fresh = true) (hconverged : state.requestedBytes = state.currentBytes)
    (hresolved : Resolved state charge vm)
    (hQ : ∀ seen vm' w', Reported config seen vm' w' → Q seen vm' (w', committed)) :
    Ensures config .observing (VmController.observeConverged state (.held (some charge))) Q vm
      (w, committed) := by
  apply ensures_bind
  apply ensures_modify
  apply ensures_bind
  refine ensures_widenIfDue (h.other rfl rfl rfl rfl) hfresh hconverged hresolved ?_ ?_
  swap
  · intro error vm' w' hseen
    exact hQ _ _ _ (hseen.stopping error)
  intro vm' w' hseen hfresh' hresolved'
  apply ensures_bind
  refine ensures_readRequest hseen hfresh' ?_ ?_
  · intro w' hheard
    apply ensures_bind
    apply ensures_publish hheard.phase
    exact hQ _ _ _ hheard.held
  · intro request base envelope w' hheard hfresh'' hguest hrequest hbase
    refine ensures_admission hheard hvalid hfresh'' hconverged hresolved' hguest hrequest hbase
      (hQ _ _ _ hheard.held) ?_
    intro ready hready
    exact hQ _ _ _ ⟨hheard.toCoupled, hheard.charged_remembered, nofun,
      by rintro _ ⟨⟩; exact hready⟩

/-- What a valid reading changes. -/
theorem read_valid (hvalid : state.Valid) : w.read (.ok state) = { w with
    live := some state
    fresh := true
    remembered := some (VmController.chargeOf w.control state)
    charge := some (VmController.chargeOf w.control state) } := by
  unfold VmWorld.read VmWorld.accepted
  simp only [VirtioMemState.validate_eq_ok.mpr hvalid, if_true]

theorem ensures_liveState {Q : Except String VirtioMemState → VmController → VmWorld × Nat → Prop}
    (hphase : w.phase = .idle)
    (hok : ∀ state, state.Valid → Q (.ok state) vm (w.read (.ok state), committed))
    (herror : ∀ error, Q (.error error) vm ({ w with charge := w.remembered }, committed)) :
    Ensures config .observing VmController.liveState Q vm (w, committed) := by
  apply ensures_bind
  refine ensures_ask ⟨rfl, hphase⟩ fun answer => ?_
  cases answer with
  | error error => exact herror error
  | ok state =>
      cases hvalidate : state.validate with
      | ok _ =>
          simp only [hvalidate]
          exact hok state (VirtioMemState.validate_eq_ok.mp hvalidate)
      | error error =>
          have hread : w.read (.ok state) = { w with charge := w.remembered } := by
            simp [VmWorld.read, VmWorld.accepted, hvalidate]
          have hunread := herror error.toString
          rw [← hread] at hunread
          simp only [hvalidate]
          exact hunread

/-- A VM that cannot be read keeps the charge it is remembered by. -/
theorem Coupled.unread (h : Coupled config vm w) :
    Coupled config vm { w with charge := w.remembered } :=
  ⟨⟨h.configured, h.inv, h.remembered, h.outstanding⟩, h.control, h.phase⟩

/-- A reading that is remembered makes the controller agree again. -/
theorem Coupled.remember (h : Coupled config vm w) (hvalid : state.Valid) :
    Seen config state (VmController.chargeOf vm.control state, state.blockSizeBytes)
      { vm with
        outstandingGrowth := some (VmController.outstandingOf vm.control state)
        lastCharge := some (VmController.chargeOf vm.control state, state.blockSizeBytes) }
      (w.read (.ok state)) := by
  rw [read_valid hvalid, h.control]
  exact {
    configured := h.configured
    inv := h.inv
    remembered := rfl
    outstanding := rfl
    control := rfl
    phase := h.phase
    live := rfl
    last := rfl
    charged := rfl }

theorem ensures_observeUnread {error : String} (h : Coupled config vm w)
    (hcharged : w.charge = w.remembered)
    (hQ : ∀ seen vm' w', Reported config seen vm' w' → Q seen vm' (w', committed)) :
    Ensures config .observing (VmController.observeUnread error) Q vm (w, committed) := by
  apply ensures_bind
  apply ensures_get
  split
  · apply ensures_bind
    refine ensures_latch h fun vm' w' hcoupled hkept _ _ => ?_
    refine hQ _ _ _ ⟨hcoupled, ?_, by rintro _ ⟨⟩; rfl, nofun⟩
    rw [hkept.charge, hkept.remembered, hcharged]
  · exact hQ _ _ _ ⟨h, hcharged, by rintro _ ⟨⟩; rfl, nofun⟩

theorem ensures_observeLive (h : Coupled config vm w) (hvalid : state.Valid)
    (hQ : ∀ seen vm' w', Reported config seen vm' w' → Q seen vm' (w', committed)) :
    Ensures config .observing (VmController.observeLive state) Q vm (w.read (.ok state), committed) := by
  have hseen := h.remember hvalid
  have hfresh : (w.read (.ok state)).fresh = true := by rw [read_valid hvalid]
  apply ensures_bind
  apply ensures_modify
  apply ensures_bind
  apply ensures_get
  apply ensures_bind
  refine ensures_resolveIntent hseen hfresh rfl fun vm' w' hseen hfresh hresolved => ?_
  split
  · next hpending =>
      apply ensures_bind
      refine ensures_observePending hseen hvalid hfresh hpending fun step vm' w' hseen => ?_
      apply ensures_bind
      apply ensures_publish hseen.phase
      cases step with
      | wait => exact hQ _ _ _ hseen.held
      | stop error => exact hQ _ _ _ (hseen.stopping error)
  · next hconverged =>
      exact ensures_observeConverged hseen hvalid hfresh (not_not.mp hconverged) hresolved hQ

/-- **The first phase of one VM keeps the protocol.** -/
theorem ensures_observe (h : Coupled config vm w)
    (hQ : ∀ seen vm' w', Reported config seen vm' w' → Q seen vm' (w', committed)) :
    Ensures config .observing VmController.observe Q vm (w, committed) := by
  apply ensures_bind
  apply ensures_liveState h.phase
  · intro state hvalid
    exact ensures_observeLive h hvalid hQ
  · intro error
    exact ensures_observeUnread h.unread rfl hQ

theorem ensures_observeStopped (h : Coupled config vm w)
    (hQ : ∀ seen vm' w', Reported config seen vm' w' → (∀ error, seen ≠ .stop error) →
      Q seen vm' (w', committed)) :
    Ensures config .observing VmController.observeStopped Q vm (w, committed) := by
  apply ensures_bind
  apply ensures_liveState h.phase
  · intro state hvalid
    exact hQ _ _ _ (h.remember hvalid).held nofun
  · intro error
    exact hQ _ _ _ ⟨h.unread, rfl, by rintro _ ⟨⟩; rfl, nofun⟩ nofun

theorem ensures_observed {Q : Observed × Option HostRuntimeError → VmController → VmWorld × Nat → Prop}
    (h : Coupled config vm w)
    (hQ : ∀ seen stopped vm' w', Reported config seen vm' w' → (∀ error, seen ≠ .stop error) →
      Q (seen, stopped) vm' (w', committed)) :
    Ensures config .observing VmController.observed Q vm (w, committed) := by
  have hany : ∀ {P : Observed → VmController → VmWorld × Nat → Prop},
      (∀ seen vm' w', Reported config seen vm' w' → P seen vm' (w', committed)) →
      Ensures config .observing
        (if vm.stopped then VmController.observeStopped else VmController.observe) P vm
        (w, committed) := by
    intro P hP
    split
    · exact ensures_observeStopped h fun seen vm' w' hreported _ => hP seen vm' w' hreported
    · exact ensures_observe h hP
  apply ensures_bind
  apply ensures_get
  apply ensures_bind
  refine hany fun seen vm' w' hreported => ?_
  cases seen with
  | stop error =>
      have hstopped : Coupled config { vm' with stopped := true } w' :=
        ⟨⟨hreported.configured, hreported.inv, hreported.remembered, hreported.outstanding⟩,
          hreported.control, hreported.phase⟩
      apply ensures_bind
      apply ensures_modify
      apply ensures_bind
      refine ensures_observeStopped hstopped fun seen vm' w' hheld hnever => ?_
      exact hQ _ _ _ _ hheld hnever
  | held charge => exact hQ _ _ _ _ hreported nofun
  | ready ready => exact hQ _ _ _ _ hreported nofun

end Converged

end VirtioMem.Host
