import VirtioMem.Host.Observing

/-!
# The second phase keeps the protocol

`act` and everything it calls. It starts from a request that the first phase found ready, so from a
converged device with nothing under way, and it ends with a controller that agrees again, whatever
the command was answered.
-/

namespace VirtioMem.Host

open VirtioMem.Core VirtioMem.Effect VirtioMem.Word

variable {config : HostConfig} {stage : Stage} {ceiling : Option Nat} {vm : VmController}
  {w : VmWorld} {committed : Nat} {ready : Ready}

/-! ## What is granted -/

theorem le_addFree {available grant : Nat}
    (h : grant ≤ VmController.addFree config ready ceiling available committed) :
    grant ≤ ready.request.bytes ∧
      grant ≤ (config.maxRam : Nat) - ready.baseRam - ready.state.currentBytes ∧
      grant ≤ ready.state.maximumTargetBytes - ready.state.currentBytes ∧
      ∀ limit, ceiling = some limit → grant ≤ limit - ready.state.currentBytes := by
  unfold VmController.addFree at h
  simp only [le_min_iff] at h
  obtain ⟨⟨⟨⟨hrequest, hmaximum⟩, hdevice⟩, hceiling⟩, -⟩ := h
  refine ⟨hrequest, hmaximum, hdevice, ?_⟩
  rintro limit rfl
  exact hceiling

/-- A grant is whole blocks, and everything that was free allows it. -/
theorem granted_add {available : Nat} {totalBytes : Nat} (hvalid : ready.state.Valid)
    (hadd : ready.request.operation = .add)
    (htotal : totalBytes = ready.baseRam + ready.state.currentBytes)
    (hgrant : alignDown (VmController.addFree config ready ceiling available committed)
      ready.state.blockSizeBytes ≠ 0) :
    Granted config ceiling totalBytes ready.state ready.request
      (VmController.targetFor ready (alignDown
        (VmController.addFree config ready ceiling available committed)
        ready.state.blockSizeBytes)) := by
  obtain ⟨hrequest, hmaximum, hdevice, hceiling⟩ := @le_addFree config ceiling committed ready _ _
    (alignDown_le (VmController.addFree config ready ceiling available committed)
      ready.state.blockSizeBytes)
  have haligned := alignDown_mod
    (VmController.addFree config ready ceiling available committed) ready.state.blockSizeBytes
  unfold VmController.targetFor
  rw [hadd]
  dsimp only
  generalize alignDown (VmController.addFree config ready ceiling available committed)
    ready.state.blockSizeBytes = grant at *
  exact {
    counted := by omega
    add := by
      intro _
      refine ⟨by omega, by omega, by omega, by omega, ?_⟩
      intro limit hlimit
      have hle := hceiling limit hlimit
      omega
    remove := by
      intro hremove
      rw [hadd] at hremove
      cases hremove
    aligned := by simp [Nat.add_mod, hvalid.current_mod, haligned] }

theorem granted_remove {totalBytes : Nat} (hvalid : ready.state.Valid)
    (hremove : ready.request.operation = .remove)
    (htotal : totalBytes = ready.baseRam + ready.state.currentBytes)
    (hgrant : alignDown (VmController.removeFree config ready) ready.state.blockSizeBytes ≠ 0) :
    Granted config ceiling totalBytes ready.state ready.request
      (VmController.targetFor ready (alignDown (VmController.removeFree config ready)
        ready.state.blockSizeBytes)) := by
  have hfree := alignDown_le (VmController.removeFree config ready) ready.state.blockSizeBytes
  have haligned := alignDown_mod (VmController.removeFree config ready) ready.state.blockSizeBytes
  unfold VmController.targetFor
  rw [hremove]
  dsimp only
  generalize alignDown (VmController.removeFree config ready) ready.state.blockSizeBytes = grant at *
  unfold VmController.removeFree at hfree
  rw [le_min_iff] at hfree
  exact {
    counted := by omega
    add := by
      intro hadd
      rw [hremove] at hadd
      cases hadd
    remove := fun _ => ⟨by omega, by omega, by omega⟩
    aligned := Nat.mod_eq_zero_of_dvd (Nat.dvd_sub (Nat.dvd_of_mod_eq_zero hvalid.current_mod)
      (Nat.dvd_of_mod_eq_zero haligned)) }

theorem ensures_grantFor {Q : Nat → VmController → VmWorld × Nat → Prop} {totalBytes : Nat}
    (hconfig : vm.config = config) (hvalid : ready.state.Valid)
    (htotal : totalBytes = ready.baseRam + ready.state.currentBytes)
    (h : ∀ grant, (grant ≠ 0 → Granted config ceiling totalBytes ready.state ready.request
      (VmController.targetFor ready grant)) → Q grant vm (w, committed)) :
    Ensures config stage (VmController.grantFor ready ceiling committed) Q vm (w, committed) := by
  apply ensures_bind
  apply ensures_get
  rw [hconfig]
  cases hoperation : ready.request.operation with
  | add =>
      apply ensures_bind
      refine ensures_ask (by trivial) fun answer => ?_
      apply ensures_bind
      refine (Action.wp_ofExcept _).mpr ⟨fun available _ => ?_, fun _ _ => trivial⟩
      exact h _ fun hgrant => granted_add hvalid hoperation htotal hgrant
  | remove => exact h _ fun hgrant => granted_remove hvalid hoperation htotal hgrant

/-! ## Ending without a command -/

section Unexecuted

variable {Q : Step → VmController → VmWorld × Nat → Prop}

/-- A request ahead of the journal can only be admitted as a new one. -/
theorem ensures_admitNew {U : Unit → VmController → VmWorld × Nat → Prop} {request : MemoryRequest}
    {now : Nat} {w : VmWorld × Nat} (hahead : vm.control.journal.Ahead request)
    (h : ∀ tolerance, request.validateAt vm.config.vmName vm.config.rawTelemetryServiceName now
        tolerance = .ok () →
      U () { vm with control := { vm.control with journal := ⟨some request, none⟩ } } w) :
    Ensures config stage (VmController.admitNew request now) U vm w := by
  obtain ⟨w, committed⟩ := w
  apply ensures_bind
  apply ensures_tolerance
  intro tolerance
  apply ensures_bind
  apply ensures_get
  apply ensures_bind
  apply ensures_setControl
  apply ensures_controllerError
  intro _ hok
  cases hadmitted : vm.control.journal.admitRequest request vm.config.vmName
      vm.config.rawTelemetryServiceName now tolerance with
  | mk answer journal =>
      rw [hadmitted] at hok
      rcases MemoryRequestJournal.admit_cases hadmitted with
        ⟨_, rfl, -⟩ | ⟨-, -, hheld⟩ | ⟨-, rfl, hvalid, -, -⟩
      · cases hok
      · exact absurd (hahead request hheld).1 (lt_irrefl _)
      · exact h tolerance hvalid

theorem ensures_replayed {U : Unit → VmController → VmWorld × Nat → Prop} {request : MemoryRequest}
    {now : Nat} {w : VmWorld × Nat} (h : U () vm w) :
    Ensures config stage (VmController.admitIfNew .replay request now) U vm w :=
  h

theorem Coupled.stored (h : Coupled config vm w) {vm' : VmController} {file : CheckpointFile}
    (hinv : ControlInv file.control) (hidle : w.control.intent = none → file.control.intent = none)
    (hconfig : vm'.config = vm.config) (hcontrol : vm'.control = file.control)
    (hlast : vm'.lastCharge = vm.lastCharge)
    (houtstanding : vm'.outstandingGrowth =
      w.live.map (VmController.outstandingOf file.control)) :
    Coupled config vm' (w.persist file .written) := by
  rw [persist_kept hidle]
  exact ⟨⟨hconfig.trans h.configured, hinv, by rw [hlast]; exact h.remembered, houtstanding⟩,
    hcontrol, rfl⟩

theorem ensures_recordUnexecuted {result : MemoryResult} (h : Coupled config vm w)
    (hidle : w.control.intent = none) (hahead : w.control.journal.Ahead result.request)
    (hterminal : result.terminal = true)
    (hQ : ∀ step vm' w', Coupled config vm' w' → Q step vm' (w', committed)) :
    Ensures config (.acting ceiling) (VmController.recordUnexecuted ready.state .new result) Q vm
      (w, committed) := by
  apply ensures_bind
  apply ensures_admitNew (h.control.symm ▸ hahead)
  intro tolerance _
  apply ensures_bind
  apply ensures_recordResult
  intro journal hjournal
  have hwrites := @Writes.unexecuted config (.acting ceiling) w ceiling result journal rfl h.phase
    hidle hahead hterminal hjournal
  apply ensures_bind
  apply ensures_save
  · dsimp only
    rw [h.control]
    exact hwrites
  have hstored : Coupled config { vm with control := { vm.control with journal := journal } }
      (w.persist (vm.checkpoint.file { vm.control with journal := journal }) .written) := by
    apply h.stored
    · show ControlInv { vm.control with journal := journal }
      rw [h.control]
      exact hwrites.inv h.inv
    · intro _
      show vm.control.intent = none
      rw [h.control]
      exact hidle
    · rfl
    · rfl
    · rfl
    · rw [h.outstanding, VmWorld.outstanding, ← h.control]
      rfl
  apply ensures_bind
  apply ensures_publish hstored.phase
  exact hQ _ _ _ hstored

theorem ensures_refuse {reason : String} (h : Coupled config vm w)
    (hadmission : ready.admission = .new)
    (hQ : ∀ step vm' w', Coupled config vm' w' → Q step vm' (w', committed)) :
    Ensures config stage (VmController.refuse ready reason) Q vm (w, committed) := by
  apply ensures_bind
  apply ensures_now
  intro now
  rw [if_pos hadmission]
  apply ensures_bind
  apply ensures_publish h.phase
  exact hQ _ _ _ h

end Unexecuted

/-! ## Sending a command -/

section Executing

variable {Q : Step → VmController → VmWorld × Nat → Prop} {request : MemoryRequest}
  {intent : CommandIntent}

/-- After an answer that was no refusal the saved intent stands, and the controller agrees. -/
theorem ensures_settleSent {now : Nat} {answer : Except ResizeSinkError Unit}
    (h : Coupled config vm w) (hsent : VmWorld.refused answer = false)
    (hQ : ∀ step vm' w', Coupled config vm' w' → Q step vm' (w', committed)) :
    Ensures config stage (VmController.settleCommand ready now answer) Q vm (w, committed) := by
  match answer with
  | .ok _ =>
      apply ensures_bind
      refine ensures_ask (by trivial) fun instant => ?_
      apply ensures_bind
      apply ensures_modify
      apply ensures_bind
      apply ensures_publish h.phase
      exact hQ _ _ _ ⟨⟨h.configured, h.inv, h.remembered, h.outstanding⟩, h.control, h.phase⟩
  | .error (.commandUnknown reason) =>
      apply ensures_bind
      refine ensures_latch h fun vm' w' hcoupled _ _ _ => ?_
      apply ensures_bind
      apply ensures_publish hcoupled.phase
      exact hQ _ _ _ hcoupled
  | .error (.rejected reason) => cases hsent

/-- The intent of a command is saved, and the command was not sent yet. -/
structure Armed (config : HostConfig) (ready : Ready) (target : Nat) (vm : VmController)
    (w : VmWorld) : Prop where
  configured : vm.config = config
  inv : ControlInv w.control
  control : vm.control = w.control
  remembered : vm.lastCharge.map Prod.fst = w.remembered
  phase : w.phase = .armed
  active : config.observeOnly = false
  live : w.live = some ready.state
  fresh : w.fresh = true
  converged : ready.state.requestedBytes = ready.state.currentBytes
  journal : w.control.journal = ⟨some ready.request, none⟩
  intent : ∃ intent, w.control.intent = some intent ∧ intent.targetBytes = target
  valid : ∃ now tolerance, ready.request.validateAt config.vmName config.rawTelemetryServiceName now
    tolerance = .ok ()
  guest : ∃ envelope ceiling, w.guest = some envelope ∧ envelope.request = some ready.request ∧
    Granted config ceiling envelope.memory.physicalTotalBytes ready.state ready.request target

/-- A refused command releases its intent and rejects its request. -/
theorem ensures_settleRefused {now target : Nat} {reason : String}
    {answer : Except ResizeSinkError Unit} (h : Armed config ready target vm w)
    (hrefused : answer = .error (.rejected reason))
    (hQ : ∀ step vm' w', Coupled config vm' w' → Q step vm' (w', committed)) :
    Ensures config (.acting ceiling) (VmController.settleCommand ready now answer) Q vm
      (w.resize answer, committed) := by
  subst hrefused
  obtain ⟨intent, hintent, -⟩ := h.intent
  apply ensures_bind
  apply ensures_setControl
  apply ensures_bind
  apply ensures_modify
  apply ensures_bind
  apply ensures_replayed
  apply ensures_bind
  apply ensures_recordResult
  intro journal hjournal
  dsimp only at hjournal
  rw [h.control] at hjournal
  -- The release is one write with the rejection.
  have hwrites := @Writes.release config (.acting ceiling)
    (w.resize (.error (.rejected reason))) ceiling ready.request now reason journal rfl rfl
    (congrArg MemoryRequestJournal.request h.journal) hjournal
  apply ensures_bind
  apply ensures_save
  · dsimp only
    rw [h.control]
    exact hwrites
  rw [@persist_kept (w.resize (.error (.rejected reason))) _
    (fun hnone => absurd (hintent.symm.trans hnone) nofun)]
  apply ensures_bind
  apply ensures_publish rfl
  apply hQ
  exact {
    configured := h.configured
    inv := by
      have hinv := @Writes.inv _ _ (w.resize (.error (.rejected reason))) _ h.inv hwrites
      show ControlInv { vm.control with intent := none, journal := journal }
      rw [h.control]
      exact hinv
    remembered := h.remembered
    outstanding := by
      show some 0 = w.live.map _
      rw [h.live]
      simp [VmController.outstandingOf, VmWorld.control, controlOf,
        DurableControlState.intentTarget, Checkpoint.file, h.converged]
    control := rfl
    phase := rfl }

/-- Whatever the command is answered, the controller agrees again. -/
theorem ensures_sendResize {Q : Step × Nat → VmController → VmWorld × Nat → Prop} {now target : Nat}
    (h : Armed config ready target vm w)
    (hQ : ∀ step vm' w' committed', Coupled config vm' w' →
      Q (step, committed') vm' (w', committed')) :
    Ensures config (.acting ceiling) (VmController.sendResize ready now target committed) Q vm
      (w, committed) := by
  obtain ⟨intent, hintent, htarget⟩ := h.intent
  obtain ⟨envelope, limit, hguest, hpublished, hgranted⟩ := h.guest
  apply ensures_bind
  apply ensures_modify
  apply ensures_bind
  apply ensures_get
  apply ensures_bind
  refine ensures_ask ?_ fun answer => ?_
  · exact ⟨h.phase, h.active, h.live, h.fresh, h.converged, h.journal, h.intent, h.valid,
      by rw [h.configured], envelope, limit, hguest, hpublished, hgranted⟩
  apply ensures_bind
  show Ensures config (.acting ceiling) _ _ _ (w.resize answer.result, _)
  have hfinish : ∀ step vm' w', Coupled config vm' w' →
      Ensures config (.acting ceiling)
        (pure (step, saturatingAdd committed (target - ready.state.currentBytes))) Q vm'
        (w', commit committed (.requestResize ready.request ready.state target {
          currentBytes := ready.state.currentBytes
          targetBytes := target
          previouslyCommitted := committed
          minimumHeadroomBytes := vm.config.hostMinHeadroomBytes })) :=
    fun step vm' w' hcoupled => hQ step vm' w' _ hcoupled
  -- With any answer but a refusal the command may have run.
  cases hrefused : VmWorld.refused answer.result with
  | false =>
      refine ensures_settleSent ?_ hrefused hfinish
      exact {
        configured := h.configured
        inv := h.inv
        remembered := h.remembered
        outstanding := by
          show some (target - ready.state.currentBytes) = w.live.map (VmController.outstandingOf
            w.control)
          simp only [h.live, VmController.outstandingOf, DurableControlState.intentTarget, hintent,
            Option.map_some, Option.getD_some, h.converged, htarget, Option.some.injEq]
          omega
        control := h.control
        phase := by simp [VmWorld.resize, hrefused] }
  | true =>
      obtain ⟨reason, hreason⟩ : ∃ reason, answer.result = .error (.rejected reason) := by
        unfold VmWorld.refused at hrefused
        split at hrefused
        · next reason hanswer => exact ⟨reason, hanswer⟩
        · cases hrefused
      have harmed : Armed config ready target { vm with
          outstandingGrowth := some (target - ready.state.currentBytes) } w := { h with }
      exact ensures_settleRefused harmed hreason hfinish

/-- **Admission and intent are written together, before the command.** -/
theorem ensures_execute {Q : Step × Nat → VmController → VmWorld × Nat → Prop} {now grant : Nat}
    (h : Coupled config vm w) (hready : ReadyFor config ready w)
    (hactive : config.observeOnly = false)
    (hgranted : ∀ envelope, w.guest = some envelope →
      Granted config ceiling envelope.memory.physicalTotalBytes ready.state ready.request
        (VmController.targetFor ready grant))
    (hQ : ∀ step vm' w' committed', Coupled config vm' w' →
      Q (step, committed') vm' (w', committed')) :
    Ensures config (.acting ceiling) (VmController.execute ready now grant committed) Q vm
      (w, committed) := by
  obtain ⟨envelope, hguest, hpublished, -⟩ := hready.guest
  apply ensures_bind
  refine ensures_ask (by trivial) fun stopped => ?_
  split
  · exact hQ _ _ _ _ h
  apply ensures_bind
  apply ensures_nextOperationId
  intro operationId counter
  apply ensures_bind
  rw [hready.admission]
  apply ensures_admitNew (h.control.symm ▸ hready.ahead)
  intro tolerance hvalid
  dsimp only at hvalid
  rw [h.configured] at hvalid
  apply ensures_bind
  apply ensures_setControl
  -- Admission and intent are one write.
  have hwrites := @Writes.begin config (.acting ceiling) w ceiling ready.state envelope ready.request
    (VmController.commandIntent ready operationId now (VmController.targetFor ready grant)) now
    tolerance rfl h.phase hready.live hready.fresh hready.converged hready.unlatched hready.idle
    hready.settled hready.ahead hvalid hguest hpublished (hgranted envelope hguest) rfl rfl
  apply ensures_bind
  apply ensures_save
  · dsimp only
    rw [h.control]
    exact hwrites
  apply ensures_sendResize _ hQ
  exact {
    configured := h.configured
    inv := by
      have hinv := hwrites.inv h.inv
      rw [← h.control] at hinv
      exact hinv
    control := rfl
    remembered := h.remembered
    phase := by
      show (w.persist _ .written).phase = .armed
      simp [VmWorld.persist, hready.idle, Checkpoint.file]
    active := hactive
    live := hready.live
    fresh := hready.fresh
    converged := hready.converged
    journal := rfl
    intent := ⟨_, rfl, rfl⟩
    valid := ⟨now, tolerance, hvalid⟩
    guest := ⟨envelope, ceiling, hguest, hpublished, hgranted envelope hguest⟩ }

/-- **The second phase of one VM keeps the protocol.** -/
theorem ensures_act {Q : Step × Nat → VmController → VmWorld × Nat → Prop}
    (h : Coupled config vm w) (hready : ReadyFor config ready w)
    (hQ : ∀ step vm' w' committed', Coupled config vm' w' →
      Q (step, committed') vm' (w', committed')) :
    Ensures config (.acting ceiling) (VmController.act ready ceiling committed) Q vm
      (w, committed) := by
  have hrefuse : ∀ reason, Ensures config (.acting ceiling)
      (VmController.uncommitted committed (VmController.refuse ready reason)) Q vm (w, committed) := by
    intro reason
    apply ensures_bind
    refine ensures_refuse h hready.admission fun step vm' w' hcoupled => ?_
    exact hQ _ _ _ _ hcoupled
  obtain ⟨envelope, hguest, -, htotal⟩ := hready.guest
  apply ensures_bind
  apply ensures_now
  intro now
  apply ensures_bind
  apply ensures_tolerance
  intro tolerance
  apply ensures_bind
  apply ensures_get
  split
  · exact hrefuse _
  split
  · exact hrefuse _
  apply ensures_bind
  refine ensures_grantFor h.configured hready.valid htotal fun grant hgranted => ?_
  split
  · exact hrefuse _
  next hactive =>
  rw [h.configured, Bool.not_eq_true] at hactive
  split
  · apply ensures_bind
    rw [hready.admission]
    have hrequest : (VmController.nothingGranted ready.request now).request = ready.request := by
      unfold VmController.nothingGranted
      split <;> rfl
    refine ensures_recordUnexecuted h hready.idle ?_ ?_ fun step vm' w' hcoupled => ?_
    · rw [hrequest]
      exact hready.ahead
    · unfold VmController.nothingGranted
      split <;> rfl
    · exact hQ _ _ _ _ hcoupled
  next hgrant =>
  refine ensures_execute h hready hactive ?_ hQ
  intro other hother
  rw [hguest] at hother
  cases hother
  exact hgranted hgrant

theorem ensures_acted {Q : Option HostRuntimeError × Nat → VmController → VmWorld × Nat → Prop}
    (h : Coupled config vm w) (hready : ReadyFor config ready w)
    (hQ : ∀ stopped vm' w' committed', Coupled config vm' w' →
      Q (stopped, committed') vm' (w', committed')) :
    Ensures config (.acting ceiling) (VmController.acted ready ceiling committed) Q vm
      (w, committed) := by
  apply ensures_bind
  refine ensures_act h hready fun step vm' w' committed' hcoupled => ?_
  cases step with
  | wait => exact hQ _ _ _ _ hcoupled
  | stop error =>
      exact hQ _ _ _ _ ⟨⟨hcoupled.configured, hcoupled.inv, hcoupled.remembered,
        hcoupled.outstanding⟩, hcoupled.control, hcoupled.phase⟩

end Executing

end VirtioMem.Host
