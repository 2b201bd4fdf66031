import VirtioMem.Host.Steady
import VirtioMem.Host.Lifetimes

/-!
# What is on file can be reported

The second phase of a VM is steady as the first one is, and so is a round of all of them. From that, by
induction over the runs of the host, every file that is ever on disk can be loaded and reported: its
journal is valid, its texts can be shown, and the target of its intent is a whole number of the blocks
the device had when the intent was recorded (`hostRun_recorded`).
-/

namespace VirtioMem.Host

open VirtioMem.Core VirtioMem.Effect VirtioMem.Word VirtioMem.Text

variable {α : Type} {config : HostConfig} {reliable : Prop} {state : VirtioMemState}
  {vm vm' : VmController} {w w' : VmWorld} {ready : Ready} {committed : Nat}

/-! ## The second phase -/

/-- A request that is admitted becomes the journal. -/
theorem steady_admitNew {U : Unit → VmController → VmWorld → Prop} {request : MemoryRequest}
    {now : Nat} (hfit : Fit config reliable vm)
    (hadmits : (vm.control.journal.admitRequest request vm.config.vmName
      vm.config.rawTelemetryServiceName now
      (vm.config.rawTelemetryFutureTolerance / 1000000)).1 = .ok .new)
    (h : U () { vm with control := { vm.control with journal := ⟨some request, none⟩ } } w) :
    Steady config reliable (VmController.admitNew request now) U vm w := by
  apply steady_bind
  apply steady_tolerance (hfit.configured ▸ hfit.tolerance)
  apply steady_bind
  apply steady_get
  apply steady_bind
  apply steady_setControl
  apply steady_controllerError
  · intro _
    exact ⟨(), by rw [hadmits]; rfl⟩
  · intro _ _
    obtain ⟨hjournal, -⟩ := MemoryRequestJournal.admit_new (Prod.ext hadmits rfl)
    rw [← hjournal] at h
    exact h

theorem steady_replayed {U : Unit → VmController → VmWorld → Prop} {request : MemoryRequest}
    {now : Nat} (h : U () vm w) :
    Steady config reliable (VmController.admitIfNew .replay request now) U vm w :=
  h

/-- Recording the result of a request that has none. -/
theorem steady_recordFirst {U : Unit → VmController → VmWorld → Prop} {result : MemoryResult}
    (hvalid : result.request.Valid) (hjournal : vm.control.journal = ⟨some result.request, none⟩)
    (hobserved : reliable → result.observedUnixMillis ≠ 0)
    (hactual : result.actualBytes ≤ result.request.bytes)
    (hagrees : result.outcomeAgrees result.request = true)
    (h : ∀ journal, journal.Valid →
      vm.control.journal.recordResult result = (.ok (), journal) →
      U () { vm with control := { vm.control with journal := journal } } w) :
    Steady config reliable (VmController.recordResult result) U vm w := by
  have hbefore : vm.control.journal.Valid := by
    rw [hjournal]
    exact MemoryRequestJournal.valid_admitted hvalid
  apply steady_recordResult
  · intro hreliable
    apply MemoryRequestJournal.recordResult_isOk hbefore (by rw [hjournal]) (hobserved hreliable)
      hactual hagrees
    intro previous hprevious
    rw [hjournal] at hprevious
    cases hprevious
  · exact fun journal hok => h journal (hbefore.recorded hok) hok

/-- A terminal result of the only request settles the VM. -/
theorem steady_saveSettled {U : Unit → VmController → VmWorld → Prop} {result : MemoryResult}
    {before : MemoryRequestJournal} (hfit : Fit config reliable vm)
    (hidle : vm.control.intent = none) (hterminal : result.terminal = true)
    (hjournal : vm.control.journal.Valid)
    (hrecorded : before.recordResult result = (.ok (), vm.control.journal))
    (hlatched : ∀ reason, vm.control.latchReason = some reason →
      unreadable maxReasonBytes reason = false)
    (h : ∀ w', Sound config reliable vm w' → U () vm w') :
    Steady config reliable VmController.save U vm w := by
  apply steady_saveSound hfit (.of_recorded hidle hterminal hrecorded)
  · exact ⟨hjournal, by rw [hidle]; exact nofun, hlatched⟩
  · rw [hidle]
    exact nofun
  · exact fun w' hsound _ => h w' hsound

section Acting

variable {Q : Step → VmController → VmWorld → Prop}

theorem steady_recordUnexecuted {result : MemoryResult} (h : Sound config reliable vm w)
    (hidle : vm.control.intent = none) (hvalid : result.request.Valid)
    (hadmits : (vm.control.journal.admitRequest result.request vm.config.vmName
      vm.config.rawTelemetryServiceName result.observedUnixMillis
      (vm.config.rawTelemetryFutureTolerance / 1000000)).1 = .ok .new)
    (hobserved : reliable → result.observedUnixMillis ≠ 0) (hterminal : result.terminal = true)
    (hactual : result.actualBytes ≤ result.request.bytes)
    (hagrees : result.outcomeAgrees result.request = true)
    (hQ : ∀ vm' w', Sound config reliable vm' w' → Q .wait vm' w') :
    Steady config reliable (VmController.recordUnexecuted state .new result) Q vm w := by
  apply steady_bind
  apply steady_admitNew h.toFit hadmits
  apply steady_bind
  apply steady_recordFirst hvalid rfl hobserved hactual hagrees
  intro journal hjournal hrecorded
  have hfit : Fit config reliable { vm with control := { vm.control with journal := journal } } :=
    h.toFit.other rfl rfl rfl rfl rfl
  apply steady_bind
  apply steady_saveSettled hfit hidle hterminal hjournal hrecorded h.reportable.latched
  intro w' hsound
  apply steady_bind
  apply steady_publish
  exact hQ _ _ hsound

theorem steady_refuse {reason : String} (h : Sound config reliable vm w)
    (hadmission : ready.admission = .new)
    (hQ : ∀ vm' w', Sound config reliable vm' w' → Q .wait vm' w') :
    Steady config reliable (VmController.refuse ready reason) Q vm w := by
  apply steady_bind
  apply steady_now
  intro now _
  rw [if_pos hadmission]
  apply steady_bind
  apply steady_publish
  exact hQ _ _ h

/-- **Whatever a command is answered**, its request gets a result that can be recorded. -/
theorem steady_settleCommand {now : Nat} {answer : Except ResizeSinkError Unit}
    (h : Sound config reliable vm w) (hnow : reliable → now ≠ 0) (hvalid : ready.request.Valid)
    (hjournal : vm.control.journal = ⟨some ready.request, none⟩)
    (hQ : ∀ step vm' w', Sound config reliable vm' w' → Q step vm' w') :
    Steady config reliable (VmController.settleCommand ready now answer) Q vm w := by
  match answer with
  | .ok _ =>
      apply steady_bind
      refine steady_ask trivial fun instant _ => ?_
      apply steady_bind
      apply steady_modify
      apply steady_bind
      apply steady_publish
      exact hQ _ _ _ (h.other (h.toFit.other rfl rfl rfl rfl rfl) rfl)
  | .error (.rejected reason) =>
      apply steady_bind
      apply steady_setControl
      apply steady_bind
      apply steady_modify
      apply steady_bind
      apply steady_replayed
      apply steady_bind
      apply steady_recordFirst hvalid hjournal hnow (Nat.zero_le _) rfl
      intro journal hvalid hrecorded
      have hfit : Fit config reliable { vm with
          control := { vm.control with intent := none, journal := journal }
          outstandingGrowth := some 0 } := h.toFit.other rfl rfl rfl rfl rfl
      apply steady_bind
      apply steady_saveSettled hfit rfl rfl hvalid hrecorded h.reportable.latched
      intro w' hsound
      apply steady_bind
      apply steady_publish
      exact hQ _ _ _ hsound
  | .error (.commandUnknown reason) =>
      apply steady_bind
      refine steady_latch h fun vm' w' hsound _ _ => ?_
      apply steady_bind
      apply steady_publish
      exact hQ _ _ _ hsound

/-- A grant is whole blocks. -/
theorem steady_grantFor {Q : Nat → VmController → VmWorld → Prop} {ceiling : Option Nat}
    (h : ∀ grant, ready.state.blockSizeBytes ∣ grant → Q grant vm w) :
    Steady config reliable (VmController.grantFor ready ceiling committed) Q vm w := by
  apply steady_bind
  apply steady_get
  split
  · apply steady_bind
    refine steady_ask trivial fun answer hanswer => ?_
    apply steady_bind
    apply steady_ofExcept
    · intro hreliable
      obtain ⟨bytes, rfl⟩ := hanswer hreliable
      exact ⟨bytes, rfl⟩
    · intro available _
      exact h _ (Nat.dvd_of_mod_eq_zero (alignDown_mod _ _))
  · exact h _ (Nat.dvd_of_mod_eq_zero (alignDown_mod _ _))

theorem steady_sendResize {Q : Step × Nat → VmController → VmWorld → Prop} {now target : Nat}
    (h : Sound config reliable vm w) (hnow : reliable → now ≠ 0) (hvalid : ready.request.Valid)
    (hjournal : vm.control.journal = ⟨some ready.request, none⟩)
    (hQ : ∀ outcome vm' w', Sound config reliable vm' w' → Q outcome vm' w') :
    Steady config reliable (VmController.sendResize ready now target committed) Q vm w := by
  apply steady_bind
  apply steady_modify
  apply steady_bind
  apply steady_get
  apply steady_bind
  refine steady_ask trivial fun answer _ => ?_
  have hsending : Sound config reliable
      { vm with outstandingGrowth := some (target - ready.state.currentBytes) } w :=
    h.other (h.toFit.other rfl rfl rfl rfl rfl) rfl
  have hsent : Sound config reliable
      { vm with outstandingGrowth := some (target - ready.state.currentBytes) }
      (w.resize answer.result) := hsending.world rfl
  apply steady_bind
  refine steady_settleCommand hsent hnow hvalid hjournal fun step vm' w' hsound => ?_
  exact hQ _ _ _ hsound

theorem targetFor_dvd {grant : Nat} (hvalid : ready.state.Valid)
    (hgrant : ready.state.blockSizeBytes ∣ grant) :
    ready.state.blockSizeBytes ∣ VmController.targetFor ready grant := by
  have hcurrent := Nat.dvd_of_mod_eq_zero hvalid.current_mod
  unfold VmController.targetFor
  split
  · exact Nat.dvd_add hcurrent hgrant
  · exact Nat.dvd_sub hcurrent hgrant

theorem steady_execute {Q : Step × Nat → VmController → VmWorld → Prop} {now grant : Nat}
    (h : Sound config reliable vm w) (hready : Promised config ready vm w)
    (hnow : reliable → now ≠ 0)
    (hvalid : ready.request.validateAt config.vmName config.rawTelemetryServiceName now
      (config.rawTelemetryFutureTolerance / 1000000) = .ok ())
    (hgrant : ready.state.blockSizeBytes ∣ grant)
    (hQ : ∀ outcome vm' w', Sound config reliable vm' w' → Q outcome vm' w') :
    Steady config reliable (VmController.execute ready now grant committed) Q vm w := by
  have hrequest := (MemoryRequest.validateAt_eq_ok.mp hvalid).1
  apply steady_bind
  refine steady_ask trivial fun stopped _ => ?_
  split
  · exact hQ _ _ _ h
  apply steady_bind
  apply steady_nextOperationId h.toFit
  intro operationId vm' hfit hcontrol hreadable
  apply steady_bind
  rw [hready.admission]
  apply steady_admitNew hfit
  · rw [hcontrol, hfit.configured]
    exact hready.admits _ _ hvalid
  apply steady_bind
  apply steady_setControl
  have hbegun : Fit config reliable { vm' with control := { vm'.control with
      journal := ⟨some ready.request, none⟩
      intent := some (VmController.commandIntent ready operationId now
        (VmController.targetFor ready grant)) } } := hfit.other rfl rfl rfl rfl rfl
  apply steady_bind
  apply steady_saveSound hbegun
  · exact {
      executing := fun _ _ => ⟨_, rfl, nofun⟩
      settled := nofun
      latched := by
        intro hlatched
        have hunlatched := hready.unlatched
        rw [← hcontrol] at hunlatched
        exact absurd (hunlatched.symm.trans hlatched) nofun
      own := nofun }
  · refine ⟨MemoryRequestJournal.valid_admitted hrequest, ?_, ?_⟩
    · rintro _ ⟨⟩
      exact hreadable
    · rw [hcontrol]
      exact h.reportable.latched
  · rintro _ ⟨⟩
    exact .inr ⟨ready.state, hready.live, targetFor_dvd hready.valid hgrant⟩
  · intro w' hsound _
    exact steady_sendResize hsound hnow hrequest rfl hQ

theorem nothingGranted_agrees (request : MemoryRequest) (now : Nat) :
    (VmController.nothingGranted request now).request = request ∧
      (VmController.nothingGranted request now).observedUnixMillis = now ∧
      (VmController.nothingGranted request now).terminal = true ∧
      (VmController.nothingGranted request now).actualBytes = 0 ∧
      (VmController.nothingGranted request now).outcomeAgrees request = true := by
  unfold VmController.nothingGranted
  cases hoperation : request.operation with
  | add => simp [MemoryResult.terminal, MemoryResult.outcomeAgrees, hoperation]
  | remove => simp [MemoryResult.rejected, MemoryResult.terminal, MemoryResult.outcomeAgrees]

/-- **The second phase of one VM is steady.** A request that is still valid at the time is admitted,
and what is recorded for it was not recorded before. -/
theorem steady_act {Q : Step × Nat → VmController → VmWorld → Prop} {ceiling : Option Nat}
    (h : Sound config reliable vm w) (hready : Promised config ready vm w)
    (hQ : ∀ outcome vm' w', Sound config reliable vm' w' → Q outcome vm' w') :
    Steady config reliable (VmController.act ready ceiling committed) Q vm w := by
  have hrefuse : ∀ reason, Steady config reliable
      (VmController.uncommitted committed (VmController.refuse ready reason)) Q vm w := by
    intro reason
    apply steady_bind
    refine steady_refuse h hready.admission fun vm' w' hsound => ?_
    exact hQ _ _ _ hsound
  apply steady_bind
  apply steady_now
  intro now hnow
  have hnow : reliable → now ≠ 0 := fun hreliable => (hnow hreliable).1.ne'
  apply steady_bind
  apply steady_tolerance (h.configured ▸ h.tolerance)
  apply steady_bind
  apply steady_get
  split
  · exact hrefuse _
  next hvalid =>
  rw [h.configured] at hvalid
  split
  · exact hrefuse _
  apply steady_bind
  refine steady_grantFor fun grant hgrant => ?_
  split
  · exact hrefuse _
  split
  · obtain ⟨hrequest, hobserved, hterminal, hactual, hagrees⟩ :=
      nothingGranted_agrees ready.request now
    apply steady_bind
    rw [hready.admission]
    apply steady_recordUnexecuted h hready.idle
    · rw [hrequest]
      exact (MemoryRequest.validateAt_eq_ok.mp hvalid).1
    · rw [hrequest, hobserved, h.configured]
      exact hready.admits _ _ hvalid
    · rw [hobserved]
      exact hnow
    · exact hterminal
    · rw [hactual]
      exact Nat.zero_le _
    · rw [hrequest]
      exact hagrees
    · intro vm' w' hsound
      exact hQ _ _ _ hsound
  · exact steady_execute h hready hnow hvalid hgrant hQ

theorem steady_acted {Q : Option HostRuntimeError × Nat → VmController → VmWorld → Prop}
    {ceiling : Option Nat} (h : Sound config reliable vm w) (hready : Promised config ready vm w)
    (hQ : ∀ outcome vm' w', Sound config reliable vm' w' → Q outcome vm' w') :
    Steady config reliable (VmController.acted ready ceiling committed) Q vm w := by
  apply steady_bind
  refine steady_act h hready fun outcome vm' w' hsound => ?_
  rcases outcome with ⟨_ | error, committed'⟩
  · exact hQ _ _ _ hsound
  · exact hQ _ _ _ (hsound.other (hsound.toFit.other rfl rfl rfl rfl rfl) rfl)

end Acting

/-! ## A round -/

/-- What is expected of the answers to all VMs. -/
def ExpectedAll (reliable : Prop) : Reliance HostWorld RuntimeOp RuntimeAns := fun W op answer =>
  match op, answer with
  | .stopRequested, _ => True
  | .vm index op, answer => Expected reliable (W index) op answer

def recordLawAll (configs : List HostConfig) : Monitor HostWorld RuntimeOp RuntimeAns where
  may W
    | .stopRequested => True
    | .vm index op => ∃ config, configs[index]? = some config ∧ (recordLaw config).may (W index) op
  next := HostWorld.next

/-- The same as `Steady` for an action of the runtime. -/
abbrev SteadyAll (configs : List HostConfig) (reliable : Prop) (action : RuntimeAction α)
    (Q : α → HostRuntime → HostWorld → Prop) (s : HostRuntime) (W : HostWorld) : Prop :=
  Action.relying (ExpectedAll reliable) (recordLawAll configs) action Q
    (fun _ _ _ => ¬reliable) s W

/-- Every VM is sound. -/
structure SoundAll (configs : List HostConfig) (reliable : Prop) (s : HostRuntime)
    (W : HostWorld) : Prop where
  length : s.vms.length = configs.length
  sound : ∀ index vm, s.vms[index]? = some vm →
    ∃ config, configs[index]? = some config ∧ Sound config reliable vm (W index)

variable {configs : List HostConfig} {s : HostRuntime} {W : HostWorld} {index : Nat}

theorem SoundAll.set (h : SoundAll configs reliable s W) (hconfig : configs[index]? = some config)
    (hsound : Sound config reliable vm' w') :
    SoundAll configs reliable { s with vms := s.vms.set index vm' }
      (Function.update W index w') where
  length := (List.length_set ..).trans h.length
  sound := by
    intro other vm hvm
    by_cases hother : other = index
    · subst hother
      have hlt : other < s.vms.length := by
        rw [h.length]
        exact (List.getElem?_eq_some_iff.mp hconfig).1
      rw [List.getElem?_set_self hlt] at hvm
      cases hvm
      exact ⟨config, hconfig, by rw [Function.update_self]; exact hsound⟩
    · rw [List.getElem?_set_ne (Ne.symm hother)] at hvm
      rw [Function.update_of_ne hother]
      exact h.sound other vm hvm

theorem steadyAll_bind {β : Type} {action : RuntimeAction α} {next : α → RuntimeAction β}
    {Q : β → HostRuntime → HostWorld → Prop}
    (h : SteadyAll configs reliable action
      (fun value s W => SteadyAll configs reliable (next value) Q s W) s W) :
    SteadyAll configs reliable (action >>= next) Q s W :=
  (Action.relying_bind action next).mpr h

theorem steadyAll_stop {Q : Bool → HostRuntime → HostWorld → Prop} (h : ∀ stopped, Q stopped s W) :
    SteadyAll configs reliable (Action.perform .stopRequested) Q s W :=
  ⟨trivial, fun stopped _ => h stopped⟩

/-- One VM's action within the runtime: the rest of the world stands still. -/
theorem steadyAll_onVm {action : VmAction α} {P : α → VmController → VmWorld → Prop}
    {Q : α → HostRuntime → HostWorld → Prop} (hvm : s.vms[index]? = some vm)
    (hconfig : configs[index]? = some config) (h : Steady config reliable action P vm (W index))
    (hQ : ∀ value vm' w', P value vm' w' →
      Q value { s with vms := s.vms.set index vm' } (Function.update W index w')) :
    SteadyAll configs reliable (HostRuntime.onVm index action) Q s W := by
  unfold SteadyAll Action.relying HostRuntime.onVm
  rw [hvm]
  refine Prog.safeIf_bind.mpr ?_
  have hembed := @Prog.SafeIf.embed VmOp RuntimeOp VmAns RuntimeAns _ _ _ (recordLaw config)
    (recordLawAll configs) (Expected reliable) (ExpectedAll reliable) (.vm index)
    (fun _ answer => answer) (action vm) _ (fun w W' => W' = Function.update W index w) ?_ ?_ ?_
    (W index) W h (Function.update_eq_self ..).symm
  · refine hembed.mono ?_
    rintro ⟨_ | value, vm'⟩ _ ⟨w', rfl, hP⟩
    · exact hP
    · exact hQ value vm' w' hP
  · rintro w _ op rfl hmay
    refine ⟨config, hconfig, ?_⟩
    rw [Function.update_self]
    exact hmay
  · rintro w _ op answer rfl hanswer
    have hexpected : Expected reliable (Function.update W index w index) op answer := hanswer
    rw [Function.update_self] at hexpected
    exact hexpected
  · rintro w _ op answer rfl _
    show Function.update (Function.update W index w) index
      ((Function.update W index w index).next op answer) = _
    rw [Function.update_self, Function.update_idem]
    rfl

/-- What one VM has reported, against its controller and the world. -/
def Reports (configs : List HostConfig) (reliable : Prop) (s : HostRuntime) (W : HostWorld)
    (index : Nat) (seen : Observed) : Prop :=
  ∃ vm config, s.vms[index]? = some vm ∧ configs[index]? = some config ∧
    Settles config reliable seen vm (W index) ∧ ∀ error, seen ≠ .stop error

theorem Reports.other {other : Nat} {seen : Observed} (h : Reports configs reliable s W other seen)
    (hne : other ≠ index) :
    Reports configs reliable { s with vms := s.vms.set index vm' } (Function.update W index w') other
      seen := by
  obtain ⟨vm, config, hvm, hconfig, hsettles⟩ := h
  refine ⟨vm, config, ?_, hconfig, ?_⟩
  · show (s.vms.set index vm')[other]? = some vm
    rw [List.getElem?_set_ne (Ne.symm hne)]
    exact hvm
  · rw [Function.update_of_ne hne]
    exact hsettles

/-- Every VM has reported as listed. -/
structure ReportedAll (configs : List HostConfig) (reliable : Prop) (observed : List Observed)
    (s : HostRuntime) (W : HostWorld) : Prop where
  sound : SoundAll configs reliable s W
  length : observed.length = configs.length
  seen : ∀ index seen, observed[index]? = some seen → Reports configs reliable s W index seen

theorem steadyAll_observeFrom
    {Q : Option (List Observed × Option HostRuntimeError) → HostRuntime → HostWorld → Prop}
    (hnone : ∀ s W, SoundAll configs reliable s W → Q none s W)
    (hsome : ∀ observed lastStop s W, ReportedAll configs reliable observed s W →
      Q (some (observed, lastStop)) s W) (count : Nat) :
    ∀ (observed : List Observed) (lastStop : Option HostRuntimeError) (s : HostRuntime)
      (W : HostWorld), SoundAll configs reliable s W → observed.length + count = configs.length →
      (∀ index seen, observed[index]? = some seen → Reports configs reliable s W index seen) →
      SteadyAll configs reliable
        (HostRuntime.observeFrom observed lastStop (List.range' observed.length count)) Q s W := by
  induction count with
  | zero =>
      intro observed lastStop s W h hlength hseen
      exact hsome observed lastStop s W ⟨h, hlength, hseen⟩
  | succ count ih =>
      intro observed lastStop s W h hlength hseen
      have hlt : observed.length < s.vms.length := by
        rw [h.length]
        omega
      have hvm := List.getElem?_eq_getElem hlt
      obtain ⟨config, hconfig, hsound⟩ := h.sound _ _ hvm
      rw [List.range'_succ]
      apply steadyAll_bind
      refine steadyAll_stop fun stopped => ?_
      split
      · exact hnone s W h
      apply steadyAll_bind
      refine steadyAll_onVm hvm hconfig (steady_observed (Q := fun value vm' w' =>
        Settles config reliable value.1 vm' w' ∧ ∀ error, value.1 ≠ .stop error) hsound
        fun seen stopped vm' w' hsettles hnever => ⟨hsettles, hnever⟩) ?_
      rintro ⟨seen, stopped⟩ vm' w' ⟨hsettles, hnever⟩
      have hnext := ih (observed ++ [seen]) (stopped.or lastStop) _ _
        (h.set hconfig hsettles.toSound)
        (by rw [List.length_append, List.length_singleton]; omega) ?_
      · rw [List.length_append, List.length_singleton] at hnext
        exact hnext
      intro index other hother
      rcases Nat.lt_trichotomy index observed.length with hlt | rfl | hgt
      · rw [List.getElem?_append_left hlt] at hother
        exact (hseen index other hother).other hlt.ne
      · rw [List.getElem?_concat_length] at hother
        cases hother
        refine ⟨vm', config, ?_, hconfig, ?_, hnever⟩
        · exact List.getElem?_set_self hlt
        · rw [Function.update_self]
          exact hsettles
      · rw [List.getElem?_eq_none (by rw [List.length_append, List.length_singleton]; omega)]
          at hother
        cases hother

/-- The first phase of a round is steady, and ends with a report of every VM. -/
theorem steadyAll_observeAll
    {Q : Option (List Observed × Option HostRuntimeError) → HostRuntime → HostWorld → Prop}
    (h : SoundAll configs reliable s W) (hnone : ∀ s W, SoundAll configs reliable s W → Q none s W)
    (hsome : ∀ observed lastStop s W, ReportedAll configs reliable observed s W →
      Q (some (observed, lastStop)) s W) :
    SteadyAll configs reliable HostRuntime.observeAll Q s W := by
  show SteadyAll configs reliable
    (HostRuntime.observeFrom [] none (List.range s.vms.length)) Q s W
  rw [List.range_eq_range']
  exact steadyAll_observeFrom hnone hsome _ [] none s W h (by simp [h.length]) nofun

/-- What the pool is told. -/
def HostRuntime.members (self : HostRuntime) (observed : List Observed) (poolBytes : Nat) :
    List PoolMember :=
  List.zipWith (fun vm seen => vm.poolMember seen poolBytes) self.vms observed

/-- **Only an overflow can fail the allocation.** Every block size the pool is told was read from a
valid device, or is the least there is. -/
theorem ReportedAll.allocates {observed : List Observed}
    (h : ReportedAll configs reliable observed s W)
    (hfits : ∀ poolBytes, s.poolBytes = some poolBytes →
      chargedTotal (s.members observed poolBytes) ≠ none) :
    ∃ ceilings, s.allocate observed = .ok ceilings := by
  cases hpool : s.poolBytes with
  | none => exact ⟨none, by simp [HostRuntime.allocate, hpool]⟩
  | some poolBytes =>
  have hblocks : (s.members observed poolBytes).any
      (fun member => member.blockBytes == 0 || !isPowerOfTwo member.blockBytes) = false := by
    rw [List.any_eq_false]
    intro member hmember
    obtain ⟨index, hindex⟩ := List.mem_iff_getElem?.mp hmember
    rw [HostRuntime.members, List.getElem?_zipWith] at hindex
    cases hvm : s.vms[index]? with
    | none => simp [hvm] at hindex
    | some vm =>
    cases hseen : observed[index]? with
    | none => simp [hvm, hseen] at hindex
    | some seen =>
    obtain ⟨_, config, -, -, hsettles, hnever⟩ := h.seen index seen hseen
    -- A VM that was not read has no block size but the least.
    have hvalid : ValidBlock (vm.poolMember seen poolBytes).blockBytes := by
      cases seen with
      | stop error => exact absurd rfl (hnever error)
      | ready ready =>
          have hstate := (hsettles.ready ready rfl).valid
          exact ⟨hstate.block_pos.ne', hstate.block_pow⟩
      | held charge =>
          cases charge with
          | none =>
              show ValidBlock minBlockSizeBytes
              exact ⟨by decide, by decide +kernel⟩
          | some charge => exact hsettles.held charge rfl
    have hmember : vm.poolMember seen poolBytes = member := by simpa [hvm, hseen] using hindex
    rw [hmember] at hvalid
    simp [hvalid.1, hvalid.2]
  cases hcharged : chargedTotal (s.members observed poolBytes) with
  | none => exact absurd hcharged (hfits poolBytes hpool)
  | some charged =>
  have hall : ∃ allocations,
      allocatePool poolBytes (s.members observed poolBytes) = .ok allocations := by
    simp [allocatePool, hblocks, hcharged]
  obtain ⟨allocations, hall⟩ := hall
  rw [HostRuntime.members] at hall
  exact ⟨some allocations, by simp [HostRuntime.allocate, hpool, hall]⟩

theorem steadyAll_actFrom {Q : Option HostRuntimeError → HostRuntime → HostWorld → Prop}
    {observed : List Observed} {ceilings : Option (List PoolAllocation)}
    (hQ : ∀ lastStop s W, SoundAll configs reliable s W → Q lastStop s W) (order : List Nat) :
    ∀ (s : HostRuntime) (W : HostWorld) (committed : Nat) (lastStop : Option HostRuntimeError),
      order.Nodup → SoundAll configs reliable s W →
      (∀ index ∈ order, ∀ seen, observed[index]? = some seen →
        Reports configs reliable s W index seen) →
      SteadyAll configs reliable
        (HostRuntime.actFrom observed ceilings order committed lastStop) Q s W := by
  induction order with
  | nil => exact fun s W committed lastStop _ h _ => hQ lastStop s W h
  | cons index order ih =>
      intro s W committed lastStop hnodup h hseen
      obtain ⟨hnotin, hnodup⟩ := List.nodup_cons.mp hnodup
      have hrest := fun other hother => hseen other (List.mem_cons_of_mem index hother)
      apply steadyAll_bind
      refine steadyAll_stop fun stopped => ?_
      split
      · exact hQ _ _ _ h
      split
      swap
      · exact ih s W committed lastStop hnodup h hrest
      next ready hobserved =>
      obtain ⟨vm, config, hvm, hconfig, hsettles, -⟩ := hseen index List.mem_cons_self _ hobserved
      apply steadyAll_bind
      refine steadyAll_onVm hvm hconfig (steady_acted (Q := fun _ vm' w' =>
        Sound config reliable vm' w') hsettles.toSound (hsettles.ready ready rfl)
        fun _ _ _ hsound => hsound) ?_
      rintro ⟨stopped, _⟩ vm' w' hsound
      apply ih _ _ _ _ hnodup (h.set hconfig hsound)
      intro other hother seen hobserved
      refine (hrest other hother seen hobserved).other ?_
      rintro rfl
      exact hnotin hother

/-- The second phase of a round is steady where the allocation does not fail. -/
theorem steadyAll_actAll {Q : Step → HostRuntime → HostWorld → Prop} {observed : List Observed}
    {lastStop : Option HostRuntimeError} (h : ReportedAll configs reliable observed s W)
    (hallocates : reliable → ∃ ceilings, s.allocate observed = .ok ceilings)
    (hQ : ∀ step s W, SoundAll configs reliable s W → Q step s W) :
    SteadyAll configs reliable (HostRuntime.actAll observed lastStop) Q s W := by
  apply steadyAll_bind
  refine steadyAll_stop fun stopped => ?_
  split
  · exact hQ _ _ _ h.sound
  refine (Action.relying_bind _ _).mpr ?_
  show SteadyAll configs reliable _ _ s W
  refine (Action.relying_bind _ _).mpr ?_
  refine (Action.relying_ofExcept _).mpr ⟨fun ceilings _ => ?_, ?_⟩
  swap
  · intro error herror hreliable
    obtain ⟨ceilings, hceilings⟩ := hallocates hreliable
    rw [hceilings] at herror
    cases herror
  have hperm := servingOrder_perm
    (fun index => (s.vms[index]?.map (·.config.priority)).getD 0) s.vms.length
  apply steadyAll_bind
  apply steadyAll_actFrom ?_ s.order s W _ _ (hperm.nodup_iff.mpr List.nodup_range) h.sound
    (fun index _ => h.seen index)
  intro lastStop s W hsound
  exact hQ _ _ _ hsound

/-! ## A clearing -/

/-- A checkpoint is opened for its VM, with the control state on file. -/
theorem openWith_stamped {fingerprint : String} {migrate : Bool} {file : Option CheckpointFile}
    {opened : Checkpoint × DurableControlState}
    (h : Checkpoint.openWith config fingerprint migrate file = .ok opened)
    (hdurable : ∀ found, file = some found → Durable config found) : Stamped config opened.1 := by
  unfold Checkpoint.openWith at h
  split at h
  · cases h
  next loaded hloaded =>
  split at h
  · cases h
  cases h
  refine ⟨rfl, rfl, ?_⟩
  rw [load_eq_ok hloaded]
  intro reason hreason
  obtain ⟨found, hfound, hreason⟩ := Option.bind_eq_some_iff.mp hreason
  exact (hdurable found hfound).cleared reason hreason

theorem reportable_fresh : Reportable .fresh :=
  ⟨⟨nofun, nofun⟩, nofun, nofun⟩

theorem reportable_controlOf {file : Option CheckpointFile}
    (h : ∀ found, file = some found → Durable config found) : Reportable (controlOf file) := by
  cases file with
  | none => exact reportable_fresh
  | some found => exact (h found rfl).control

theorem clearedJournal_valid {control : DurableControlState} {live : VirtioMemState} {now : Nat}
    {reason : String} {journal : MemoryRequestJournal} (h : control.journal.Valid)
    (hcleared : clearedJournal control live now reason = .ok journal) : journal.Valid := by
  unfold clearedJournal at hcleared
  split at hcleared
  · split at hcleared
    · cases hcleared
      exact h
    split at hcleared
    · cases hcleared
    next hrecorded =>
      cases hcleared
      exact h.recorded hrecorded
  · cases hcleared
    exact h

/-- What a clearing writes can be reported, the operator's reason included. -/
theorem clearActuationLatch_records {live : VirtioMemState} {fingerprint reason message : String}
    {now : Nat} {apply : Bool} {written : CheckpointFile}
    (hdurable : ∀ file, w.disk = some file → Durable config file)
    (h : clearActuationLatch config live fingerprint reason now apply w.disk =
      .ok (message, some written)) : Records config w written := by
  unfold clearActuationLatch at h
  split at h
  · cases h
  next hreason =>
  simp only [Bool.or_eq_true, not_or, Bool.not_eq_true, decide_eq_false_iff_not, not_lt] at hreason
  obtain ⟨⟨hempty, hsize⟩, hcontrol⟩ := hreason
  have hreadable : unreadable maxReasonBytes (trim reason) = false := by
    have hblank := @isBlank_trim reason (by simpa using hempty)
    simp only [unreadable, hblank, hcontrol, Bool.false_or, Bool.or_false, decide_eq_false_iff_not,
      not_lt]
    exact hsize.trans (by decide)
  split at h
  · cases h
  split at h
  · cases h
  split at h
  · cases h
  next checkpoint control hopen =>
  have hstamped := openWith_stamped hopen hdurable
  have hbefore := reportable_controlOf hdurable
  rw [← openWith_control hopen] at hbefore
  split at h
  · cases h
  split at h
  · cases h
  split at h
  · cases h
  next journal hjournal =>
  cases h
  refine ⟨⟨rfl, hstamped.vmName, hstamped.deviceAlias, ?_, ?_⟩, fun _ h => by cases h⟩
  · rintro _ ⟨⟩
    exact hreadable
  · exact ⟨clearedJournal_valid hbefore.journal hjournal, (fun _ h => by cases h),
      fun _ h => by cases h⟩

/-- A clearing writes only what can be reported, and returns in `Q`. -/
abbrev Clears (config : HostConfig) {α : Type} (action : OperatorAction α) (Q : α → VmWorld → Prop)
    (w : VmWorld) : Prop :=
  Action.wp (recordLaw config) action (fun value _ w => Q value w) (fun _ _ _ => True) () w

theorem clears_bind {α β : Type} {action : OperatorAction α} {next : α → OperatorAction β}
    {Q : β → VmWorld → Prop}
    (h : Clears config action (fun value w => Clears config (next value) Q w) w) :
    Clears config (action >>= next) Q w :=
  (Action.wp_bind action next).mpr h

theorem clears_ofExcept {α : Type} {answer : Except String α} {Q : α → VmWorld → Prop}
    (h : ∀ value, answer = .ok value → Q value w) : Clears config (Action.ofExcept answer) Q w :=
  (Action.wp_ofExcept answer).mpr ⟨h, fun _ _ => trivial⟩

theorem clears_memoryState {Q : VirtioMemState → VmWorld → Prop}
    (h : ∀ state w', w'.disk = w.disk → Q state w') :
    Clears config Operator.memoryState Q w := by
  have hread : ∀ answer : Except String VirtioMemState, (w.read answer).disk = w.disk := by
    intro answer
    unfold VmWorld.read
    split <;> rfl
  apply clears_bind
  refine ⟨trivial, fun answer => ?_⟩
  apply clears_bind
  apply clears_ofExcept
  intro state _
  apply clears_ofExcept
  intro state _
  exact h state _ (hread answer)

theorem clears_settleStuckShrink {apply : Bool} {Q : VirtioMemState → VmWorld → Prop}
    (h : ∀ state w', w'.disk = w.disk → Q state w') :
    Clears config (Operator.settleStuckShrink apply) Q w := by
  apply clears_bind
  apply clears_memoryState
  intro live w' hdisk
  split
  · exact h _ _ hdisk
  split
  · trivial
  split
  · exact h _ _ hdisk
  apply clears_bind
  refine ⟨trivial, fun answer => ?_⟩
  apply clears_bind
  apply clears_ofExcept
  intro _ _
  apply clears_bind
  apply clears_memoryState
  intro settled w'' hdisk'
  split
  · trivial
  · exact h _ _ (hdisk'.trans hdisk)

/-- A clearing writes only what can be reported. -/
theorem clears_runClearLatch {fingerprint reason : String} {apply : Bool}
    {disk : Option CheckpointFile} (hdisk : w.disk = disk)
    (hdurable : ∀ file, disk = some file → Durable config file) :
    Clears config (Operator.runClearLatch config fingerprint reason apply disk)
      (fun _ _ => True) w := by
  apply clears_bind
  apply clears_ofExcept
  intro latched _
  split
  · trivial
  apply clears_bind
  apply clears_settleStuckShrink
  intro live w' hsame
  apply clears_bind
  refine ⟨trivial, fun answer => ?_⟩
  apply clears_bind
  apply clears_ofExcept
  intro now _
  generalize hcleared : clearActuationLatch config live fingerprint reason now apply disk = cleared
  apply clears_bind
  apply clears_ofExcept
  rintro ⟨message, written⟩ rfl
  have hafter : w'.disk = disk := hsame.trans hdisk
  cases written with
  | none => trivial
  | some file =>
      subst hafter
      have hrecords := clearActuationLatch_records hdurable hcleared
      apply clears_bind
      refine ⟨hrecords, fun saved => ?_⟩
      apply clears_ofExcept
      intros
      trivial

/-! ## Runs -/

/-- The block size that goes with the intent on file after a step: that of the device as it was last
read, if the step has recorded the intent. -/
def noted (w w' : VmWorld) (block : Nat) : Nat :=
  if w'.control.intent = w.control.intent then block
  else (w.live.map VirtioMemState.blockSizeBytes).getD block

/-- **The recorded block size**: that of the VM's device when the intent on file was recorded. -/
def recordedBlock (index : Nat) : HostWorld → Nat → List Label → Nat
  | _, block, [] => block
  | W, block, label :: labels =>
    recordedBlock index (HostWorld.step W label)
      (noted (W index) (HostWorld.step W label index) block) labels

/-- The file can be loaded and reported, and its target is whole blocks. -/
structure OnFile (config : HostConfig) (w : VmWorld) (block : Nat) : Prop where
  durable : ∀ file, w.disk = some file → Durable config file
  aligned : ∀ intent, w.control.intent = some intent → block ∣ intent.targetBytes

variable {block : Nat} {labels : List Label} {events : List (Event RuntimeAns)}

theorem recordedBlock_append {first second : List Label} :
    recordedBlock index W block (first ++ second) =
      recordedBlock index (HostWorld.after W first) (recordedBlock index W block first) second := by
  induction first generalizing W block with
  | nil => rfl
  | cons label first ih => exact ih

theorem onFile_initial : OnFile config .initial block where
  durable := fun _ h => absurd h.symm (Option.some_ne_none _)
  aligned := fun _ h => absurd h.symm (Option.some_ne_none _)

theorem OnFile.of_disk (h : OnFile config w block) (hdisk : w'.disk = w.disk) :
    OnFile config w' (noted w w' block) := by
  have hcontrol : w'.control = w.control := congrArg controlOf hdisk
  refine ⟨hdisk ▸ h.durable, ?_⟩
  rw [noted, if_pos (by rw [hcontrol]), hcontrol]
  exact h.aligned

/-- Only a write changes the file. -/
theorem VmWorld.disk_next (w : VmWorld) {op : VmOp} (answer : VmAns op) :
    (w.next op answer).disk = w.disk ∨
      ∃ file, op = .persist file ∧ (w.next op answer).disk = some file := by
  cases op with
  | persist file =>
      match answer with
      | .written => exact .inr ⟨file, rfl, rfl⟩
      | .failed _ true => exact .inr ⟨file, rfl, rfl⟩
      | .failed _ false => exact .inl rfl
  | memoryState =>
      left
      show (w.read answer).disk = w.disk
      unfold VmWorld.read
      split <;> rfl
  | widenUsableRegion expected =>
      left
      show (w.widen answer).disk = w.disk
      unfold VmWorld.widen
      split <;> rfl
  | _ => exact .inl rfl

/-- **A step keeps the file reportable.** -/
theorem OnFile.next (h : OnFile config w block) {op : VmOp} (hmay : (recordLaw config).may w op)
    (answer : VmAns op) :
    OnFile config (w.next op answer) (noted w (w.next op answer) block) := by
  rcases w.disk_next answer with hdisk | ⟨file, rfl, hdisk⟩
  · exact h.of_disk hdisk
  have hcontrol : (w.next (.persist file) answer).control = file.control := congrArg controlOf hdisk
  have hrecords : Records config w file := hmay
  refine ⟨?_, ?_⟩
  · intro other hother
    rw [hdisk] at hother
    cases hother
    exact hrecords.toDurable
  · intro intent hintent
    rw [hcontrol] at hintent
    unfold noted
    rw [hcontrol]
    split
    · next hsame => exact h.aligned intent (hsame ▸ hintent)
    · next hchanged =>
        rcases hrecords.aligned intent hintent with hold | ⟨live, hlive, hdvd⟩
        · exact absurd (hintent.trans hold.symm) hchanged
        · rw [hlive]
          exact hdvd

/-- Every file is as it should be. -/
def OnFileAll (configs : List HostConfig) (W : HostWorld) (blocks : Nat → Nat) : Prop :=
  ∀ index config, configs[index]? = some config → OnFile config (W index) (blocks index)

/-- What stands after a list of labels. -/
abbrev OnFileAfter (configs : List HostConfig) (W : HostWorld) (blocks : Nat → Nat)
    (labels : List Label) : Prop :=
  OnFileAll configs (HostWorld.after W labels)
    fun index => recordedBlock index W (blocks index) labels

/-- One label that touches no file but by a write that can be reported. -/
theorem OnFileAll.step {blocks : Nat → Nat} {label : Label} (h : OnFileAll configs W blocks)
    (hstep : ∀ index config, configs[index]? = some config →
      (HostWorld.step W label index).disk = (W index).disk ∨
        ∃ op answer, (recordLaw config).may (W index) op ∧
          HostWorld.step W label index = (W index).next op answer) :
    OnFileAll configs (HostWorld.step W label)
      fun index => noted (W index) (HostWorld.step W label index) (blocks index) := by
  intro index config hconfig
  rcases hstep index config hconfig with hdisk | ⟨op, answer, hmay, hnext⟩
  · exact (h index config hconfig).of_disk hdisk
  · have hkept := (h index config hconfig).next hmay answer
    rw [← hnext] at hkept
    exact hkept

theorem OnFileAll.accepted {blocks : Nat → Nat} (h : OnFileAll configs W blocks)
    (haccepts : (recordLawAll configs).Accepts W events) :
    OnFileAfter configs W blocks (events.map .event) := by
  induction events generalizing W blocks with
  | nil => exact h
  | cons event events ih =>
      obtain ⟨op, answer⟩ := event
      refine ih (h.step fun index config hconfig => ?_) haccepts.2
      cases op with
      | stopRequested => exact .inl rfl
      | vm other op =>
          obtain ⟨config', hconfig', hmay⟩ := haccepts.1
          by_cases hother : index = other
          · subst hother
            rw [hconfig] at hconfig'
            cases hconfig'
            exact .inr ⟨op, answer, hmay, Function.update_self ..⟩
          · left
            show (Function.update W other _ index).disk = _
            rw [Function.update_of_ne hother]

theorem OnFileAll.operated {blocks : Nat → Nat} {other : Nat} {events : List (Event VmAns)}
    (h : OnFileAll configs W blocks) (hconfig : configs[other]? = some config)
    (haccepts : (recordLaw config).Accepts (W other) events) :
    OnFileAfter configs W blocks (events.map (.operated other)) := by
  induction events generalizing W blocks with
  | nil => exact h
  | cons event events ih =>
      obtain ⟨op, answer⟩ := event
      refine ih (h.step fun index config' hconfig' => ?_) ?_
      · by_cases hother : index = other
        · subst hother
          rw [hconfig] at hconfig'
          cases hconfig'
          exact .inr ⟨op, answer, haccepts.1, Function.update_self ..⟩
        · left
          show (Function.update W other _ index).disk = _
          rw [Function.update_of_ne hother]
      · show (recordLaw config).Accepts
          (Function.update W other ((W other).next op answer) other) events
        rw [Function.update_self]
        exact haccepts.2

theorem OnFileAll.still {blocks : Nat → Nat} {label : Label} (h : OnFileAll configs W blocks)
    (hdisk : ∀ index, (HostWorld.step W label index).disk = (W index).disk) :
    OnFileAfter configs W blocks [label] :=
  h.step fun index _ _ => .inl (hdisk index)

theorem OnFileAfter.append {blocks : Nat → Nat} {first second : List Label}
    (h : OnFileAfter configs (HostWorld.after W first)
      (fun index => recordedBlock index W (blocks index) first) second) :
    OnFileAfter configs W blocks (first ++ second) := by
  intro index config hconfig
  have hafter := h index config hconfig
  rw [← HostWorld.after_append] at hafter
  show OnFile config _ (recordedBlock index W (blocks index) (first ++ second))
  rw [recordedBlock_append]
  exact hafter

/-- What a clearing writes keeps every file reportable. -/
theorem OnFileAll.cleared {blocks : Nat → Nat} {other : Nat} {fingerprint reason : String}
    {apply : Bool} {events : List (Event VmAns)}
    {result : Option (Except String String × Unit)} (h : OnFileAll configs W blocks)
    (hconfig : configs[other]? = some config)
    (hruns : (Operator.runClearLatch config fingerprint reason apply (W other).disk ()).Runs events
      result) :
    OnFileAfter configs W blocks (.started :: events.map (.operated other)) := by
  have hstarted : OnFileAfter configs W blocks [.started] := h.still fun _ => rfl
  have hsafe : Clears config (Operator.runClearLatch config fingerprint reason apply (W other).disk)
      (fun _ _ => True) (W other).restart :=
    clears_runClearLatch rfl (h other config hconfig).durable
  exact OnFileAll.operated hstarted hconfig (Prog.Safe.accepts hsafe hruns).1

/-- Sizes are 64-bit values. -/
def Ranged (labels : List Label) : Prop :=
  ∀ index state, .event ⟨.vm index .memoryState, .ok state⟩ ∈ labels → state.sizeBytes ≤ maximum

theorem Ranged.expects (h : Ranged (events.map .event)) :
    (recordLawAll configs).Expects (ExpectedAll False) W events := by
  induction events generalizing W with
  | nil => trivial
  | cons event events ih =>
      obtain ⟨op, answer⟩ := event
      refine ⟨?_, ih fun index state hmem => h index state (List.mem_cons_of_mem _ hmem)⟩
      cases op with
      | stopRequested => trivial
      | vm index op =>
          cases op with
          | memoryState =>
              rintro state rfl
              exact h index state List.mem_cons_self
          | nowUnixMillis => exact False.elim
          | persist file => exact False.elim
          | availableBytes => exact False.elim
          | _ => trivial

theorem SoundAll.stale (h : SoundAll configs reliable s W) :
    SoundAll configs reliable s (HostWorld.step W .round) where
  length := h.length
  sound := by
    intro index vm hvm
    obtain ⟨config, hconfig, hsound⟩ := h.sound index vm hvm
    exact ⟨config, hconfig, hsound.world rfl⟩

/-- What a world may be relied on for does not matter between two rounds. -/
theorem SoundAll.rely (h : SoundAll configs False s W)
    (htolerance : ∀ config ∈ configs, config.rawTelemetryFutureTolerance / 1000000 ≤ maximum) :
    SoundAll configs reliable s W where
  length := h.length
  sound := by
    intro index vm hvm
    obtain ⟨config, hconfig, hsound⟩ := h.sound index vm hvm
    have hmem := List.mem_of_getElem? hconfig
    exact ⟨config, hconfig, ⟨hsound.configured, hsound.process, hsound.counter, hsound.checkpoint,
      fun _ => htolerance config hmem, hsound.block⟩, hsound.control, hsound.inv, hsound.reportable⟩

theorem steadyAll_round (h : SoundAll configs False s W) :
    SteadyAll configs False HostRuntime.round (fun _ s W => SoundAll configs False s W) s W := by
  apply steadyAll_bind
  apply steadyAll_observeAll h
  · exact fun s W h => h
  · intro observed lastStop s W hreported
    exact steadyAll_actAll hreported False.elim fun _ _ _ h => h

/-- The controllers of a new process are sound. -/
theorem start_sound {pool : Option Nat} {fingerprint : Nat → String} {pid : Nat} {blocks : Nat → Nat}
    (hpid : pid < 2 ^ 32) (hinv : ∀ index, ControlInv (W index).control)
    (hfile : OnFileAll configs W blocks)
    (h : HostRuntime.start pool configs fingerprint pid (fun index => (W index).disk) = .ok s) :
    SoundAll configs False s (HostWorld.step W .started) := by
  unfold HostRuntime.start at h
  split at h
  · cases h
  next vms hvms =>
  obtain ⟨hlength, hopened⟩ := openAll_opened hvms
  unfold HostRuntime.new at h
  split_ifs at h
  cases h
  refine ⟨hlength, ?_⟩
  intro index vm hvm
  obtain ⟨config, opened, hconfig, hopen, rfl⟩ := hopened index vm hvm
  rw [Nat.zero_add] at hopen
  have hcontrol := openWith_control hopen
  have hdurable := (hfile index config hconfig).durable
  refine ⟨config, hconfig, ?_⟩
  exact {
    configured := rfl
    process := hpid
    counter := Nat.zero_le _
    checkpoint := openWith_stamped hopen hdurable
    tolerance := False.elim
    block := nofun
    control := hcontrol
    inv := by
      show ControlInv opened.2
      rw [hcontrol]
      exact hinv index
    reportable := by
      show Reportable opened.2
      rw [hcontrol]
      exact reportable_controlOf hdurable }

/-- **Every file that is ever on disk can be loaded and reported**, and a running daemon is sound. -/
theorem hostRun_recorded {pool : Option Nat} {process : Option HostRuntime}
    (h : HostRun pool configs labels process) (hranged : Ranged labels) :
    OnFileAfter configs .initial (fun _ => 0) labels ∧
      ∀ s, process = some s → SoundAll configs False s (HostWorld.after .initial labels) := by
  have hsplit : ∀ {first second : List Label}, Ranged (first ++ second) →
      Ranged first ∧ Ranged second := by
    intro first second hboth
    exact ⟨fun index state hmem => hboth index state (List.mem_append_left _ hmem),
      fun index state hmem => hboth index state (List.mem_append_right _ hmem)⟩
  -- A round that is cut counts too: its steps are accepted as far as it came.
  have hround : ∀ {s : HostRuntime} {W : HostWorld} {blocks : Nat → Nat}
      {events : List (Event RuntimeAns)}
      {result : Option (Except HostRuntimeError Step × HostRuntime)},
      SoundAll configs False s W → OnFileAll configs W blocks → Ranged (.round :: events.map .event) →
      (HostRuntime.round s).Runs events result →
      OnFileAfter configs W blocks (.round :: events.map .event) ∧
        ∀ step s', result = some (.ok step, s') →
          SoundAll configs False s' (HostWorld.after W (.round :: events.map .event)) := by
    intro s W blocks events result hsound hfile hranged hruns
    have hexpects := @Ranged.expects configs (HostWorld.step W .round) events
      (fun index state hmem => hranged index state (List.mem_cons_of_mem _ hmem))
    obtain ⟨haccepts, hpost⟩ := Prog.SafeIf.accepts (steadyAll_round hsound.stale) hruns hexpects
    have hstale : OnFileAfter configs W blocks [.round] := hfile.still fun _ => rfl
    refine ⟨OnFileAll.accepted hstale haccepts, ?_⟩
    rintro step s' rfl
    have hafter := hpost _ rfl
    show SoundAll configs False s' (HostWorld.after (HostWorld.step W .round) _)
    rw [HostWorld.after_events none configs]
    exact hafter
  -- By induction on the run; only a start and a round have a daemon to speak of.
  induction h with
  | fresh => exact ⟨fun _ _ _ => onFile_initial, nofun⟩
  | start fingerprint pid hpid hrun hstart ih =>
      obtain ⟨hfile, -⟩ := ih (hsplit hranged).1
      refine ⟨OnFileAfter.append (hfile.still fun _ => rfl), ?_⟩
      rintro _ ⟨⟩
      rw [HostWorld.after_append]
      exact start_sound hpid (fun index => (hostRun_lawful hrun).1.controlInv controlInv_fresh) hfile
        hstart
  | round _ hruns ih =>
      obtain ⟨hbefore, hafter⟩ := hsplit hranged
      obtain ⟨hfile, hsound⟩ := ih hbefore
      obtain ⟨hfile', hsound'⟩ := hround (hsound _ rfl) hfile hafter hruns
      refine ⟨OnFileAfter.append hfile', ?_⟩
      rintro _ ⟨⟩
      rw [HostWorld.after_append]
      exact hsound' _ _ rfl
  | exit _ hruns ih =>
      obtain ⟨hbefore, hafter⟩ := hsplit hranged
      obtain ⟨hfile, hsound⟩ := ih hbefore
      exact ⟨OnFileAfter.append (hround (hsound _ rfl) hfile hafter hruns).1, nofun⟩
  | @clear labels index config fingerprint reason apply events result _ hconfig hruns ih =>
      obtain ⟨hfile, -⟩ := ih (hsplit hranged).1
      exact ⟨OnFileAfter.append (hfile.cleared hconfig hruns), nofun⟩

end VirtioMem.Host
