import VirtioMem.Core.Grid
import VirtioMem.Guest.Evidence
import VirtioMem.Host.Devices

/-!
# The guest's limits are the host's

The guest keeps its requests inside the RAM limits by clamping device sizes; the host cuts what it
grants by limits of its own, from the same configuration and the same device, but with other
arithmetic. Where the two round differently a request is granted in part, and asked for again for
ever.

They do not. `onGrid_of_trace` carries the block grid along any run of a requester, `urge_bounds`
and `desired_le_reclaimTarget` place the request that is issued at its end, and `requests_agree` puts
the host's computation next to it: with the pool and the host's memory out of the way, what is granted
is what was asked for.
-/

namespace VirtioMem.Host

open VirtioMem.Core VirtioMem.Effect VirtioMem.Word

/-! ## The grid along a run -/

/-- Every status the requester may use is of a device with this block size. -/
def SameBlock (vm service : String) (block : Nat) (trace : List Entry) : Prop :=
  ∀ sample live answer, Entry.polled sample (some live) answer ∈ trace →
    live.validateFor vm service = .ok () → live.blockSizeBytes = block

section Guest

variable {start self : GuestRequester} {block : Nat} {trace : List Entry}
  {sample : TargetSample} {status : Option HostMemoryStatus}

theorem SameBlock.before {vm service : String} {entry : Entry}
    (h : SameBlock vm service block (trace ++ [entry])) : SameBlock vm service block trace :=
  fun sample live answer hmem => h sample live answer (List.mem_append_left _ hmem)

/-- One sample keeps the grid. -/
theorem assess_onGrid (h : self.estimator.state.OnGrid block)
    (hblock : ∀ live, status = some live → live.validateFor self.vmName self.serviceName = .ok () →
      live.blockSizeBytes = block) :
    (self.assess sample status).2.estimator.state.OnGrid block := by
  cases hassess : self.assess sample status with
  | mk answer after =>
      obtain ⟨live, hlive, hestimate⟩ | ⟨-, rfl⟩ | ⟨-, rfl, -⟩ := GuestRequester.assess_cases hassess
      · obtain ⟨rfl, hvalid, -⟩ := GuestRequester.convergedStatus_eq_some.mp hlive
        obtain rfl : (GuestRequester.geometryOf live).blockSizeBytes = block :=
          hblock live rfl hvalid
        obtain ⟨_, _, -, rfl, hestimate⟩ | ⟨_, _, -, rfl, hestimate⟩ := hestimate <;>
          exact TargetEstimator.estimate_onGrid h hestimate
      · exact h.sheds ⟨rfl, .inl rfl⟩
      · exact h

/-- **Along any run** what the requester remembers stays on the grid. -/
theorem onGrid_of_trace (hstart : start.estimator.state.OnGrid block)
    (h : GuestRequester.Trace start trace self)
    (hblock : SameBlock start.vmName start.serviceName block trace) :
    self.estimator.state.OnGrid block ∧ self.vmName = start.vmName ∧
      self.serviceName = start.serviceName := by
  induction h with
  | start => exact ⟨hstart, rfl, rfl⟩
  | @polled trace self _ sample status ih =>
      obtain ⟨hgrid, hvm, hservice⟩ := ih hblock.before
      obtain ⟨-, hvm', hservice', -⟩ := @GuestRequester.poll_identity self sample status
      refine ⟨?_, hvm'.trans hvm, hservice'.trans hservice⟩
      rw [GuestRequester.poll_estimator]
      refine assess_onGrid hgrid fun live hlive hvalid => ?_
      subst hlive
      rw [hvm, hservice] at hvalid
      exact hblock sample live _ (List.mem_append_right _ (List.mem_singleton_self _)) hvalid
  | invalidated _ ih =>
      obtain ⟨hgrid, hsame⟩ := ih hblock.before
      exact ⟨hgrid.sheds ⟨rfl, .inl rfl⟩, hsame⟩
  | @limited trace self _ minimum maximum ih =>
      obtain ⟨hgrid, hsame⟩ := ih hblock.before
      unfold GuestRequester.setRamLimits TargetEstimator.setRamLimits
      split_ifs
      · exact ⟨hgrid, hsame⟩
      · exact ⟨hgrid.sheds ⟨rfl, .inl rfl⟩, hsame⟩

/-! ## Where a request lies -/

/-- Urging growth stays on the grid and below what the device may grow to. -/
theorem urge_bounds {estimate : TargetEstimate} {live : HostMemoryStatus}
    (hdesired : block ∣ estimate.desiredBytes) (hmaximum : block ∣ estimate.effectiveMaximumBytes)
    (hcurrent : block ∣ live.currentBytes) (hstep : block ∣ self.policy.growStepBytes)
    (hle : estimate.desiredBytes ≤ estimate.effectiveMaximumBytes)
    (hword : estimate.effectiveMaximumBytes ≤ maximum) :
    block ∣ (self.urge estimate live).desiredBytes ∧
      (self.urge estimate live).desiredBytes ≤ estimate.effectiveMaximumBytes := by
  unfold GuestRequester.urge
  split_ifs
  · have hgrown : min (saturatingAdd live.currentBytes self.policy.growStepBytes)
        estimate.effectiveMaximumBytes =
        min (live.currentBytes + self.policy.growStepBytes) estimate.effectiveMaximumBytes := by
      -- Where the sum saturates, the device is the smaller one.
      unfold saturatingAdd
      rw [min_assoc, min_eq_right hword]
    refine ⟨?_, max_le hle (min_le_right _ _)⟩
    show block ∣ max _ _
    rw [hgrown]
    exact max_rec' (block ∣ ·) hdesired
      (min_rec' (block ∣ ·) (Nat.dvd_add hcurrent hstep) hmaximum)
  · exact ⟨hdesired, hle⟩

@[simp] theorem urge_floor {estimate : TargetEstimate} {live : HostMemoryStatus} :
    (self.urge estimate live).safeFloorBytes = estimate.safeFloorBytes := by
  unfold GuestRequester.urge
  split_ifs <;> rfl

/-- The safe floor never decides what a removal leaves: it is below the desired size. -/
theorem reclaimTarget_dvd {estimate : TargetEstimate} {device : VirtioMemState}
    {policy : GuestMemoryPolicy} (hfloor : estimate.safeFloorBytes ≤ estimate.desiredBytes)
    (hdesired : block ∣ estimate.desiredBytes) (hcurrent : block ∣ device.currentBytes)
    (hstep : block ∣ policy.shrinkStepBytes) : block ∣ reclaimTarget estimate device policy := by
  unfold reclaimTarget
  rw [max_eq_left (le_max_of_le_right hfloor)]
  exact max_rec' (block ∣ ·) (Nat.dvd_sub hcurrent hstep) hdesired

theorem desired_le_reclaimTarget (estimate : TargetEstimate) (device : VirtioMemState)
    (policy : GuestMemoryPolicy) : estimate.desiredBytes ≤ reclaimTarget estimate device policy :=
  le_max_of_le_left (le_max_right _ _)

end Guest

/-! ## What the host computes -/

/-- The host grants what is free, in whole blocks; for an addition it reads its memory first. -/
theorem grantFor_runs {ready : Ready} {ceiling : Option Nat} {committed grant : Nat}
    {vm vm' : VmController} {events : List (Event VmAns)}
    (h : (VmController.grantFor ready ceiling committed vm).Runs events (some (.ok grant, vm'))) :
    (ready.request.operation = .add ∧ ∃ available : U64,
      ⟨.availableBytes, .ok available⟩ ∈ events ∧
      grant = alignDown (VmController.addFree vm.config ready ceiling available committed)
        ready.state.blockSizeBytes) ∨
    (ready.request.operation = .remove ∧
      grant = alignDown (VmController.removeFree vm.config ready) ready.state.blockSizeBytes) := by
  cases hoperation : ready.request.operation with
  | add =>
      unfold VmController.grantFor at h
      rw [hoperation] at h
      cases h with
      | @step _ _ answer _ _ h =>
          cases answer with
          | error error => cases h
          | ok available =>
              cases h
              exact .inl ⟨rfl, available, List.mem_cons_self, rfl⟩
  | remove =>
      unfold VmController.grantFor at h
      rw [hoperation] at h
      cases h
      exact .inr ⟨rfl, rfl⟩

/-- The host grants the whole request, and what it leads to is within the limits. -/
structure InFull (config : HostConfig) (ready : Ready) : Prop where
  whole : ready.request.bytes % ready.state.blockSizeBytes = 0
  /-- Where the pool is unlimited and the host's memory leaves room for it. -/
  granted : ∀ vm vm' committed grant events, vm.config = config →
    (VmController.grantFor ready none committed vm).Runs events (some (.ok grant, vm')) →
    (∀ available : U64, ⟨.availableBytes, .ok available⟩ ∈ events → ready.request.bytes ≤
      (available : Nat) - committed - config.hostMinHeadroomBytes - growAdmissionMarginBytes) →
    grant = ready.request.bytes
  aligned : VmController.targetFor ready ready.request.bytes % ready.state.blockSizeBytes = 0
  fits : VmController.targetFor ready ready.request.bytes ≤ ready.state.sizeBytes
  maximum : ready.request.operation = .add →
    ready.baseRam + VmController.targetFor ready ready.request.bytes ≤ (config.maxRam : Nat)
  minimum : ready.request.operation = .remove →
    (config.minRam : Nat) ≤ ready.baseRam + VmController.targetFor ready ready.request.bytes

variable {config : HostConfig} {ready : Ready}

/-- An addition that stays below both ceilings is granted in full. -/
theorem inFull_add (hoperation : ready.request.operation = .add) (hvalid : ready.state.Valid)
    (hwhole : ready.state.blockSizeBytes ∣ ready.request.bytes)
    (hword : ready.state.sizeBytes ≤ maximum) (hbase : ready.baseRam ≤ (config.maxRam : Nat))
    (hmaximum : ready.state.currentBytes + ready.request.bytes ≤
      (config.maxRam : Nat) - ready.baseRam)
    (hdevice : ready.state.currentBytes + ready.request.bytes ≤ ready.state.maximumTargetBytes) :
    InFull config ready := by
  have hsize : ready.state.maximumTargetBytes ≤ ready.state.sizeBytes := maximumTargetBytes_le _ _
  have htarget : VmController.targetFor ready ready.request.bytes =
      ready.state.currentBytes + ready.request.bytes := by
    unfold VmController.targetFor
    rw [hoperation]
  have hmod := Nat.mod_eq_zero_of_dvd hwhole
  refine ⟨hmod, ?_, ?_, by omega, fun _ => by omega, fun hremove => ?_⟩
  · rintro vm vm' committed grant events rfl hruns hroom
    obtain ⟨-, available, havailable, rfl⟩ | ⟨hremove, -⟩ := grantFor_runs hruns
    · have hfree : VmController.addFree vm.config ready none available committed =
          ready.request.bytes := by
        have hhost := hroom available havailable
        unfold VmController.addFree
        simp only [Option.map_none, Option.getD_none]
        omega
      rw [hfree, alignDown, hmod, Nat.sub_zero]
    · rw [hoperation] at hremove
      cases hremove
  · rw [htarget, Nat.add_mod, hvalid.current_mod, hmod]
    simp
  · rw [hoperation] at hremove
    cases hremove

/-- A removal that stays above the floor is granted in full. -/
theorem inFull_remove (hoperation : ready.request.operation = .remove) (hvalid : ready.state.Valid)
    (hwhole : ready.state.blockSizeBytes ∣ ready.request.bytes)
    (hle : ready.request.bytes ≤ ready.state.currentBytes)
    (hminimum : (config.minRam : Nat) - ready.baseRam ≤
      ready.state.currentBytes - ready.request.bytes) : InFull config ready := by
  have htarget : VmController.targetFor ready ready.request.bytes =
      ready.state.currentBytes - ready.request.bytes := by
    unfold VmController.targetFor
    rw [hoperation]
  have hmod := Nat.mod_eq_zero_of_dvd hwhole
  have hcurrent := hvalid.current_le
  refine ⟨hmod, ?_, ?_, by omega, fun hadd => ?_, fun _ => by omega⟩
  · rintro vm vm' committed grant events rfl hruns -
    obtain ⟨hadd, -⟩ | ⟨-, rfl⟩ := grantFor_runs hruns
    · rw [hoperation] at hadd
      cases hadd
    · have hfree : VmController.removeFree vm.config ready = ready.request.bytes := by
        unfold VmController.removeFree
        omega
      rw [hfree, alignDown, hmod, Nat.sub_zero]
  · rw [htarget]
    exact Nat.mod_eq_zero_of_dvd
      (Nat.dvd_sub (Nat.dvd_of_mod_eq_zero hvalid.current_mod) hwhole)
  · rw [hoperation] at hadd
    cases hadd

/-! ## The two agree -/

/-- **Guest requests fit the host's limits.** Whatever a requester on a device of fixed block size has
seen before, a request it issues is granted in full by a host with the same RAM limits that looks at
the same device. -/
theorem requests_agree {policy : GuestMemoryPolicy} {vm service session : String}
    {state : GuestRequestState} {start self after : GuestRequester} {block : Nat}
    {trace : List Entry} {sample : TargetSample} {status : Option HostMemoryStatus}
    {decision : GuestDecision} {request : MemoryRequest}
    (hnew : GuestRequester.new policy vm service session state = .ok start)
    (hrun : GuestRequester.Trace start trace self)
    (hblock : SameBlock vm service block
      (trace ++ [.polled sample status (self.assess sample status).1]))
    (hword : ∀ live, status = some live → live.deviceSizeBytes ≤ maximum)
    (hidle : self.state.pending = none)
    (hpoll : self.poll sample status = (.ok decision, after))
    (hrequest : decision.request = some request) :
    ∃ live, status = some live ∧ live.device.Valid ∧ live.requestedBytes = live.currentBytes ∧
      ∀ (config : HostConfig) (admission : RequestAdmission),
        (config.minRam : Nat) = self.estimator.minRam →
        (config.maxRam : Nat) = self.estimator.maxRam →
        InFull config {
          baseRam := sample.memory.physicalTotalBytes - live.currentBytes
          state := live.device
          request
          admission } := by
  obtain ⟨-, hvm, hservice, -, -, -, hestimator, -⟩ := GuestRequester.new_eq_ok hnew
  obtain ⟨live, estimate, estimator, hlive, hassess, hestimate, hplan⟩ :=
    GuestRequester.poll_issued hidle hpoll hrequest
  obtain ⟨rfl, hvalidFor, -, hconverged⟩ := GuestRequester.convergedStatus_eq_some.mp hlive
  obtain ⟨hvalid, ⟨hgrow, hshrink⟩, -, hdelta⟩ := planRequest_eq_some hplan
  -- The grid, up to and including this sample.
  obtain ⟨hgrid, hvm', hservice'⟩ := @onGrid_of_trace start self block _
    (by rw [TargetEstimator.new_state hestimator]; exact TargetEstimatorState.onGrid_initial) hrun
    (by rw [hvm, hservice]; exact hblock.before)
  obtain rfl : live.blockSizeBytes = block := by
    rw [hvm', hservice', hvm, hservice] at hvalidFor
    exact hblock sample live _ (List.mem_append_right _ (List.mem_singleton_self _)) hvalidFor
  have hafter := TargetEstimator.estimate_onGrid hgrid hestimate
  obtain ⟨hbounds, hsame⟩ := TargetEstimator.estimate_bounds hestimate
  have hdesired := hafter.desired
  rw [hsame] at hdesired
  have hmaximum : live.blockSizeBytes ∣ estimate.effectiveMaximumBytes := by
    rw [hbounds.maximum]
    exact Nat.dvd_of_mod_eq_zero (TargetEstimator.deviceMaximum_mod hbounds.fits.block_pos)
  have hcurrent : live.blockSizeBytes ∣ live.currentBytes := Nat.dvd_of_mod_eq_zero hvalid.current_mod
  -- The two ceilings of the guest are below the host's.
  have hceilings : estimate.effectiveMaximumBytes ≤ self.estimator.maxRam -
      (sample.memory.physicalTotalBytes - live.currentBytes) ∧
      estimate.effectiveMaximumBytes ≤ live.device.maximumTargetBytes := by
    rw [hbounds.maximum]
    exact ⟨le_trans (min_le_left _ _) (Nat.div_mul_le_self _ _), min_le_right _ _⟩
  have hsize : live.device.maximumTargetBytes ≤ live.deviceSizeBytes := maximumTargetBytes_le _ _
  have hword := hword live rfl
  obtain ⟨hurged, hreach⟩ := @urge_bounds (self.flagged sample) _ estimate live hdesired hmaximum
    hcurrent (Nat.dvd_of_mod_eq_zero hgrow) hbounds.desired_le (by omega)
  have hraised := (@GuestRequester.le_urge (self.flagged sample) estimate live).2
  have hminimum := hbounds.minimum_le
  have hbase := hbounds.base_le
  have hfloor : ((self.flagged sample).urge estimate live).safeFloorBytes ≤
      ((self.flagged sample).urge estimate live).desiredBytes := by
    rw [urge_floor]
    exact le_trans hbounds.floor_le hraised
  refine ⟨live, rfl, hvalid, hconverged, fun config admission hmin hmax => ?_⟩
  generalize hurge : (self.flagged sample).urge estimate live = urged at *
  generalize hoperation : request.operation = operation at *
  generalize hbytes : request.bytes = bytes at *
  cases hdelta with
  | grow hgrows =>
      have hfills : live.currentBytes + (urged.desiredBytes - live.currentBytes) =
          urged.desiredBytes := Nat.add_sub_of_le (le_of_lt hgrows)
      refine inFull_add hoperation hvalid ?_ hword ?_ ?_ ?_
      · rw [hbytes]
        exact Nat.dvd_sub hurged hcurrent
      · rw [hmax]
        exact hbase
      · rw [hbytes, hmax]
        exact le_trans (le_of_eq hfills) (le_trans hreach hceilings.1)
      · rw [hbytes]
        exact le_trans (le_of_eq hfills) (le_trans hreach hceilings.2)
  | reclaim hready htarget =>
      have hleft : live.currentBytes -
          (live.currentBytes - reclaimTarget urged live.device self.policy) =
          reclaimTarget urged live.device self.policy := Nat.sub_sub_self (le_of_lt htarget)
      refine inFull_remove hoperation hvalid ?_ ?_ ?_
      · rw [hbytes]
        exact Nat.dvd_sub hcurrent
          (reclaimTarget_dvd hfloor hurged hcurrent (Nat.dvd_of_mod_eq_zero hshrink))
      · rw [hbytes]
        exact Nat.sub_le _ _
      · rw [hbytes, hmin]
        exact le_trans (le_trans hminimum hraised)
          (le_trans (desired_le_reclaimTarget urged live.device self.policy) (le_of_eq hleft.symm))

/-! A guest between 5 and 8 GiB, with 4 GiB plugged above 2 GiB, gives a quarter GiB back. -/

open GuestRequester

def limitedWaiting : GuestRequester :=
  ((reclaimStart.setRamLimits (5 * gib) (8 * gib)).2.poll (calmSample 1000 1) (some grownStatus)).2

def limitedRequest : MemoryRequest := limitedWaiting.nextRequest .remove (gib / 4) 7000 27000

def limitedConfig : HostConfig :=
  { exampleConfig with minRam := 5368709120, maxRam := 8589934592 }

theorem limitedRequest_agrees : InFull limitedConfig {
    baseRam := 2 * gib
    state := grownStatus.device
    request := limitedRequest
    admission := .new } := by
  obtain ⟨live, hlive, -, -, h⟩ := @requests_agree _ _ _ _ _ _ limitedWaiting _ (2 * 2 ^ 20)
    [.limited (5 * gib) (8 * gib), .polled (calmSample 1000 1) (some grownStatus)
      ((reclaimStart.setRamLimits (5 * gib) (8 * gib)).2.assess (calmSample 1000 1)
        (some grownStatus)).1]
    (calmSample 2000 2) (some grownStatus) ⟨some limitedRequest, true, none⟩ limitedRequest
    reclaimStart_new
    (.polled (.limited .start (5 * gib) (8 * gib)) (calmSample 1000 1) (some grownStatus))
    (by
      intro sample live answer hmem _
      simp only [List.cons_append, List.nil_append, List.mem_cons, Entry.polled.injEq, reduceCtorEq,
        Option.some.injEq, List.not_mem_nil, or_false, false_or] at hmem
      obtain ⟨-, rfl, -⟩ | ⟨-, rfl, -⟩ := hmem <;> rfl)
    (by rintro _ ⟨⟩; decide) (by decide) (Prod.ext (by decide) rfl) rfl
  cases hlive
  exact h limitedConfig .new (by decide) (by decide)

end VirtioMem.Host
