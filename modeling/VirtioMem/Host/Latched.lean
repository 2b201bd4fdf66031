import VirtioMem.Host.Extension
import VirtioMem.Host.Recovery

/-!
# A latched VM is left alone

Once actuation is latched on disk, no command is sent for the VM any more: by no round, by no later
daemon, whatever the device, the guest and the sink do, until the operator writes a clearing. The same
holds of a VM that is only observed, for good.

The protocol of a VM says that a resize is only armed on an unlatched VM. What moves a target or widens
the region looks at the latch in memory; `Knows` is what makes that enough: a latch that is on disk is
in memory, too.
-/

namespace VirtioMem.Host

open VirtioMem.Core VirtioMem.Effect VirtioMem.Word

/-- A command to the device. -/
def VmOp.actuates : VmOp → Bool
  | .requestResize _ _ _ _ | .retargetPending _ _ | .widenUsableRegion _ => true
  | _ => false

/-- A command other than the resize that begins an operation. -/
def VmOp.moves : VmOp → Bool
  | .retargetPending _ _ | .widenUsableRegion _ => true
  | _ => false

/-- Neither such a command nor a write. -/
def VmOp.calm : VmOp → Bool
  | .persist _ | .retargetPending _ _ | .widenUsableRegion _ => false
  | _ => true

theorem moves_of_calm {op : VmOp} (h : op.calm = true) : op.moves = false := by
  cases op <;> simp_all [VmOp.calm, VmOp.moves]

/-- The VM may be sent commands. -/
def Actuated (config : HostConfig) (control : DurableControlState) : Prop :=
  control.latchReason = none ∧ config.observeOnly = false

/-- What moves a device finds its VM unlatched on disk. -/
def latchLaw (config : HostConfig) : Monitor VmWorld VmOp VmAns where
  may w op := op.moves = true → Actuated config w.control
  next := VmWorld.next

/-- A latch on disk is in memory; where `free` is claimed there is none. -/
structure Knows (config : HostConfig) (free : Prop) (vm : VmController) (w : VmWorld) : Prop where
  configured : vm.config = config
  known : vm.control.latchReason = none → w.control.latchReason = none
  free : free → Actuated config vm.control

variable {α β : Type} {config : HostConfig} {free : Prop} {vm : VmController} {w : VmWorld}
  {state : VirtioMemState}

theorem Knows.weaken (h : Knows config free vm w) : Knows config False vm w :=
  ⟨h.configured, h.known, False.elim⟩

/-! ## What leaves the latch alone -/

/-- The action keeps what is known, whatever it is answered. -/
abbrev Heeds (config : HostConfig) (free : Prop) (action : VmAction α) : Prop :=
  Keeps (fun _ _ _ => True) (latchLaw config) (Knows config free) action

theorem heeds_ask {op : VmOp} (hcalm : op.calm = true) : Heeds config free (ask op) := by
  refine Action.keeps_perform fun vm w h => ⟨fun hmoves => ?_, fun answer _ => ?_⟩
  · rw [moves_of_calm hcalm] at hmoves
    cases hmoves
  · rcases w.control_next answer with hsame | ⟨file, rfl, -⟩
    · exact ⟨h.configured, fun hnone => hsame ▸ h.known hnone, h.free⟩
    · cases hcalm

theorem heeds_modify {f : VmController → VmController} (hconfig : ∀ vm, (f vm).config = vm.config)
    (hlatch : ∀ vm, (f vm).control.latchReason = vm.control.latchReason) :
    Heeds config free (modify f) := by
  refine Action.keeps_modify fun vm w h => ⟨(hconfig vm).trans h.configured, ?_, ?_⟩
  · rw [hlatch vm]
    exact h.known
  · intro hfree
    exact ⟨(hlatch vm).trans (h.free hfree).1, (h.free hfree).2⟩

theorem heeds_setControl {f : DurableControlState → DurableControlState}
    (hlatch : ∀ control, (f control).latchReason = control.latchReason) :
    Heeds config free (VmController.setControl f) :=
  heeds_modify (fun _ => rfl) fun vm => hlatch vm.control

theorem heeds_now : Heeds config free VmController.now := by
  unfold VmController.now
  exact keeps_bind (heeds_ask rfl) keeps_controllerError

/-- What is written has the latch that is in memory. -/
theorem heeds_save : Heeds config free VmController.save := by
  intro vm w h
  refine ⟨nofun, fun saved _ => keeps_controllerError _ _ _ ⟨h.configured, fun hnone => ?_, h.free⟩⟩
  show (w.persist (vm.checkpoint.file vm.control) saved).control.latchReason = none
  rcases w.control_persist saved with hsame | hfile
  · rw [hsame]
    exact h.known hnone
  · rw [hfile]
    exact hnone

theorem heeds_recordResult (result : MemoryResult) :
    Heeds config free (VmController.recordResult result) := by
  unfold VmController.recordResult
  refine keeps_bind keeps_get fun _ => keeps_bind ?_ fun _ => keeps_controllerError _
  exact heeds_setControl fun _ => rfl

theorem heeds_admitIfNew (admission : RequestAdmission) (request : MemoryRequest) (now : Nat) :
    Heeds config free (VmController.admitIfNew admission request now) := by
  unfold VmController.admitIfNew
  split
  · unfold VmController.admitNew
    refine keeps_bind keeps_tolerance fun _ => keeps_bind keeps_get fun _ => ?_
    exact keeps_bind (heeds_setControl fun _ => rfl) fun _ => keeps_controllerError _
  · exact keeps_pure _

theorem heeds_recordUncertain (reason : String) :
    Heeds config free (VmController.recordUncertain reason) := by
  unfold VmController.recordUncertain
  refine keeps_bind keeps_get fun _ => ?_
  split
  · exact keeps_bind heeds_now fun _ => heeds_recordResult _
  · exact keeps_pure _

/-- A latch is in memory before it is on disk. -/
theorem heeds_latch (reason : String) : Heeds config False (VmController.latch reason) := by
  unfold VmController.latch
  refine keeps_bind keeps_get fun _ => ?_
  split
  · exact keeps_pure _
  · refine keeps_bind (Action.keeps_modify fun vm w h => ?_) fun _ => ?_
    · exact ⟨h.configured, nofun, False.elim⟩
    · exact keeps_bind (heeds_recordUncertain _) fun _ => heeds_save

theorem heeds_convergenceTimeout (operation : String) :
    Heeds config False (VmController.convergenceTimeout operation) := by
  unfold VmController.convergenceTimeout
  exact keeps_bind (heeds_latch _) fun _ => keeps_bind keeps_get fun _ => keeps_pure _

theorem heeds_publish (refusal : Option MemoryResult) :
    Heeds config free (VmController.publish state refusal) := by
  unfold VmController.publish
  refine keeps_bind (heeds_ask rfl) fun answer => ?_
  split
  · exact keeps_pure _
  · exact keeps_bind keeps_get fun _ => keeps_bind (heeds_ask rfl) fun _ => keeps_pure _

theorem heeds_nextOperationId : Heeds config free VmController.nextOperationId := by
  unfold VmController.nextOperationId
  refine keeps_bind (heeds_modify (fun _ => rfl) fun _ => rfl) fun _ => ?_
  exact keeps_bind keeps_get fun _ => keeps_pure _

theorem heeds_liveState : Heeds config free VmController.liveState := by
  unfold VmController.liveState
  exact keeps_bind (heeds_ask rfl) fun _ => keeps_pure _

theorem heeds_commandStalled : Heeds config free (VmController.commandStalled state) := by
  have hprogress : ∀ now, Heeds config free (do
      modify fun self : VmController =>
        { self with pendingProgress := some (state.currentBytes, now) }
      return false) := fun _ =>
    keeps_bind (heeds_modify (fun _ => rfl) fun _ => rfl) fun _ => keeps_pure _
  unfold VmController.commandStalled
  refine keeps_bind keeps_get fun _ => keeps_bind (heeds_ask rfl) fun now => ?_
  split
  · split
    · exact keeps_pure _
    · exact hprogress now
  · exact hprogress now

theorem heeds_pendingElapsed : Heeds config free VmController.pendingElapsed := by
  have hstart : Heeds config free VmController.pendingStart := by
    unfold VmController.pendingStart
    refine keeps_bind keeps_get fun _ => ?_
    split
    · exact keeps_pure _
    · refine keeps_bind (heeds_ask rfl) fun _ => keeps_bind ?_ fun _ => keeps_pure _
      exact heeds_modify (fun _ => rfl) fun _ => rfl
  unfold VmController.pendingElapsed
  refine keeps_bind keeps_get fun _ => ?_
  split
  · exact keeps_pure _
  · refine keeps_bind (heeds_ask rfl) fun _ => ?_
    split
    · exact keeps_pure _
    · exact keeps_bind hstart fun _ => keeps_bind (heeds_ask rfl) fun _ => keeps_pure _

theorem heeds_minimumStalled : Heeds config free VmController.minimumStalled := by
  unfold VmController.minimumStalled
  refine keeps_bind keeps_get fun _ => ?_
  split
  · exact keeps_pure _
  · exact keeps_bind (heeds_ask rfl) fun _ => keeps_pure _

/-! ## What moves a device -/

/-- Begun where there is no latch, the action keeps what is known; it may end in a latch. -/
abbrev Moves (config : HostConfig) (action : VmAction α) : Prop :=
  ∀ vm w, Knows config True vm w →
    Relies (fun _ _ _ => True) (latchLaw config) action (fun _ vm w => Knows config False vm w) vm w

theorem moves_bind {action : VmAction α} {next : α → VmAction β} (h : Heeds config True action)
    (hnext : ∀ value, Moves config (next value)) : Moves config (action >>= next) := by
  intro vm w hknows
  apply relies_bind
  exact relies_keeps h hknows fun value vm' w' hknows' => hnext value vm' w' hknows'

theorem moves_of_heeds {action : VmAction α} (h : Heeds config False action) : Moves config action :=
  fun _ _ hknows => relies_keeps h hknows.weaken fun _ _ _ hknows' => hknows'

/-- The command is sent while there is no latch, on disk as in memory. -/
theorem moves_ask {op : VmOp} {next : VmAns op → VmAction β} (hmoves : op.moves = true)
    (hnext : ∀ answer, Heeds config False (next answer)) : Moves config (ask op >>= next) := by
  intro vm w h
  apply relies_bind
  refine relies_ask (fun _ => ⟨h.known (h.free trivial).1, (h.free trivial).2⟩) fun answer _ => ?_
  refine relies_keeps (hnext answer) ?_ fun _ _ _ hknows => hknows
  rcases w.control_next answer with hsame | ⟨file, rfl, -⟩
  · exact ⟨h.configured, fun hnone => hsame ▸ h.known hnone, False.elim⟩
  · cases hmoves

theorem moves_settleShort (direction : CommandDirection) :
    Moves config (VmController.settleShort direction state) := by
  unfold VmController.settleShort
  refine moves_bind (heeds_ask rfl) fun _ => ?_
  split
  · exact moves_of_heeds (keeps_pure _)
  refine moves_bind heeds_nextOperationId fun _ => moves_bind heeds_now fun _ => ?_
  refine moves_bind (heeds_setControl fun _ => rfl) fun _ => moves_bind heeds_save fun _ => ?_
  refine moves_bind (heeds_modify (fun _ => rfl) fun _ => rfl) fun _ => ?_
  refine moves_ask rfl fun command => ?_
  split
  · exact keeps_pure _
  · exact keeps_bind (heeds_latch _) fun _ => keeps_pure _

theorem moves_sendExtension (operationId : String) (target stepBytes : Nat) :
    Moves config (VmController.sendExtension state operationId target stepBytes) := by
  unfold VmController.sendExtension
  refine moves_bind (heeds_setControl fun _ => rfl) fun _ => moves_bind heeds_save fun _ => ?_
  refine moves_bind (heeds_modify (fun _ => rfl) fun _ => rfl) fun _ => ?_
  refine moves_ask rfl fun command => ?_
  split
  · exact keeps_pure _
  · refine keeps_bind (heeds_setControl fun _ => rfl) fun _ => ?_
    exact keeps_bind heeds_save fun _ => keeps_pure _
  · exact keeps_bind (heeds_latch _) fun _ => keeps_pure _

theorem moves_extendShrink (base : Nat) : Moves config (VmController.extendShrink state base) := by
  unfold VmController.extendShrink
  refine moves_bind keeps_get fun _ => ?_
  split
  · exact moves_of_heeds (keeps_pure _)
  dsimp only
  split
  · exact moves_settleShort _
  refine moves_bind (heeds_modify (fun _ => rfl) fun _ => rfl) fun _ => ?_
  split
  · refine moves_bind heeds_minimumStalled fun _ => ?_
    split
    · exact moves_settleShort _
    · exact moves_of_heeds (keeps_pure _)
  · refine moves_bind (heeds_ask rfl) fun _ => ?_
    split
    · exact moves_of_heeds (keeps_pure _)
    · exact moves_sendExtension _ _ _

theorem moves_observeShrink : Moves config (VmController.observeShrink state) := by
  unfold VmController.observeShrink
  refine moves_bind (heeds_ask rfl) fun guest => ?_
  split
  · exact moves_of_heeds (keeps_pure _)
  split
  · exact moves_settleShort _
  split
  · exact moves_of_heeds (keeps_pure _)
  refine moves_bind heeds_commandStalled fun _ => ?_
  split
  · exact moves_extendShrink _
  · exact moves_of_heeds (keeps_pure _)

theorem moves_observeGrow (intent : CommandIntent) :
    Moves config (VmController.observeGrow state intent) := by
  unfold VmController.observeGrow
  refine moves_bind keeps_get fun _ => ?_
  split
  · refine moves_bind heeds_commandStalled fun _ => ?_
    split
    · exact moves_settleShort _
    · exact moves_of_heeds (keeps_pure _)
  · exact moves_of_heeds (keeps_pure _)

/-! ## The first phase -/

/-- A pending device is moved only where there is no latch. -/
theorem heeds_observePending : Heeds config False (VmController.observePending state) := by
  have hdeadline : ∀ operation, Heeds config False (do
      if ← VmController.pendingElapsed then
        let error ← VmController.convergenceTimeout operation
        return Step.stop error
      else return Step.wait) := by
    intro operation
    refine keeps_bind heeds_pendingElapsed fun _ => ?_
    split
    · exact keeps_bind (heeds_convergenceTimeout _) fun _ => keeps_pure _
    · exact keeps_pure _
  intro vm w h
  apply relies_bind
  apply relies_get
  split
  · exact h
  next intent _ =>
  have hfree : (!vm.control.latched && !vm.config.observeOnly) = true →
      Knows config True vm w := by
    intro hsettle
    rw [Bool.and_eq_true, Bool.not_eq_true', Bool.not_eq_true', h.configured] at hsettle
    refine ⟨h.configured, h.known, fun _ => ⟨?_, hsettle.2⟩⟩
    simpa [DurableControlState.latched] using hsettle.1
  dsimp only
  split
  · split
    · next hsettle => exact moves_observeGrow intent vm w (hfree hsettle)
    · exact h
  · split
    · next hsettle => exact moves_observeShrink vm w (hfree hsettle)
    · exact h
  · exact hdeadline _ vm w h
  · exact hdeadline _ vm w h

theorem heeds_resolveIntent : Heeds config False (VmController.resolveIntent state) := by
  have hresolve : ∀ intent, Heeds config False (VmController.resolveConverged intent state) := by
    intro intent
    unfold VmController.resolveConverged
    refine keeps_bind (heeds_setControl fun _ => rfl) fun _ => keeps_bind heeds_now fun _ => ?_
    refine keeps_bind keeps_get fun _ => ?_
    split
    · exact heeds_save
    · refine keeps_bind (heeds_modify (fun _ => rfl) fun _ => rfl) fun _ => ?_
      exact keeps_bind (heeds_recordResult _) fun _ => heeds_save
  unfold VmController.resolveIntent
  refine keeps_bind keeps_get fun _ => ?_
  split
  case h_4 =>
    split
    · exact keeps_pure _
    · exact hresolve _
  case h_5 => exact heeds_latch _
  case h_6 => exact heeds_latch _
  all_goals exact keeps_pure _

theorem heeds_widenUsableRegion : Heeds config False (VmController.widenUsableRegion state) := by
  unfold VmController.widenUsableRegion
  refine keeps_bind (heeds_modify (fun _ => rfl) fun _ => rfl) fun _ => ?_
  intro vm w h
  apply relies_bind
  apply relies_get
  split
  · exact h
  next hwiden =>
  rw [Bool.or_eq_true, not_or, Bool.not_eq_true, Bool.not_eq_true, h.configured] at hwiden
  have hfree : Knows config True vm w :=
    ⟨h.configured, h.known, fun _ => ⟨by simpa [DurableControlState.latched] using hwiden.1, hwiden.2⟩⟩
  refine moves_bind (heeds_ask rfl) (fun _ => ?_) vm w hfree
  split
  · exact moves_of_heeds (keeps_pure _)
  refine moves_bind (heeds_modify (fun _ => rfl) fun _ => rfl) fun _ => ?_
  refine moves_ask rfl fun command => ?_
  split
  · exact keeps_pure _
  · exact keeps_pure _
  · exact keeps_bind (heeds_latch _) fun _ => keeps_pure _

theorem heeds_observeConverged (held : Observed) :
    Heeds config False (VmController.observeConverged state held) := by
  have hwiden : Heeds config False (VmController.widenIfDue state) := by
    unfold VmController.widenIfDue
    refine keeps_bind keeps_get fun _ => ?_
    split
    · exact heeds_widenUsableRegion
    · exact keeps_pure _
  have hread : Heeds config False (VmController.readRequest state) := by
    unfold VmController.readRequest
    refine keeps_bind (heeds_ask rfl) fun answer => ?_
    split
    · exact keeps_pure _
    · refine keeps_bind ?_ fun _ => keeps_pure _
      unfold VmController.forwardTelemetry
      refine keeps_bind keeps_get fun _ => ?_
      split
      · exact keeps_pure _
      · exact keeps_bind (heeds_ask rfl) fun _ => keeps_pure _
  have hadmission : ∀ request base,
      Heeds config False (VmController.admission state held request base) := by
    intro request base
    unfold VmController.admission
    refine keeps_bind heeds_now fun _ => keeps_bind keeps_tolerance fun _ => ?_
    refine keeps_bind keeps_get fun _ => ?_
    dsimp only
    split
    · exact keeps_bind (heeds_publish _) fun _ => keeps_pure _
    split_ifs
    · exact keeps_bind (heeds_publish _) fun _ => keeps_pure _
    · exact keeps_bind (heeds_publish _) fun _ => keeps_pure _
    · exact keeps_pure _
  unfold VmController.observeConverged
  refine keeps_bind (heeds_modify (fun _ => rfl) fun _ => rfl) fun _ => ?_
  refine keeps_bind hwiden fun step => ?_
  split
  · exact keeps_pure _
  refine keeps_bind hread fun request => ?_
  split
  · exact keeps_bind (heeds_publish _) fun _ => keeps_pure _
  · exact hadmission _ _

theorem heeds_remember : Heeds config free (VmController.remember state) :=
  heeds_modify (fun _ => rfl) fun _ => rfl

theorem heeds_observeStopped : Heeds config False VmController.observeStopped := by
  unfold VmController.observeStopped
  refine keeps_bind heeds_liveState fun answer => ?_
  split
  · exact keeps_bind keeps_get fun _ => keeps_pure _
  · exact keeps_bind heeds_remember fun _ => keeps_bind keeps_get fun _ => keeps_pure _

theorem heeds_observe : Heeds config False VmController.observe := by
  unfold VmController.observe
  refine keeps_bind heeds_liveState fun answer => ?_
  split
  · unfold VmController.observeUnread
    refine keeps_bind keeps_get fun _ => ?_
    split
    · exact keeps_bind (heeds_latch _) fun _ => keeps_bind keeps_get fun _ => keeps_pure _
    · exact keeps_pure _
  · unfold VmController.observeLive
    refine keeps_bind heeds_remember fun _ => keeps_bind keeps_get fun _ => ?_
    refine keeps_bind heeds_resolveIntent fun _ => ?_
    split
    · refine keeps_bind heeds_observePending fun step => ?_
      refine keeps_bind (heeds_publish _) fun _ => ?_
      split <;> exact keeps_pure _
    · exact heeds_observeConverged _

/-- **The first phase moves no latched device.** -/
theorem heeds_observed : Heeds config False VmController.observed := by
  unfold VmController.observed
  refine keeps_bind keeps_get fun _ => keeps_bind ?_ fun seen => ?_
  · split
    · exact heeds_observeStopped
    · exact heeds_observe
  split
  · refine keeps_bind (heeds_modify (fun _ => rfl) fun _ => rfl) fun _ => ?_
    exact keeps_bind heeds_observeStopped fun _ => keeps_pure _
  · exact keeps_pure _

/-! ## The second phase -/

theorem heeds_recordUnexecuted (admission : RequestAdmission) (result : MemoryResult) :
    Heeds config False (VmController.recordUnexecuted state admission result) := by
  unfold VmController.recordUnexecuted
  refine keeps_bind (heeds_admitIfNew _ _ _) fun _ => ?_
  refine keeps_bind (heeds_recordResult _) fun _ => keeps_bind heeds_save fun _ => ?_
  exact keeps_bind (heeds_publish _) fun _ => keeps_pure _

theorem heeds_refuse (ready : Ready) (reason : String) :
    Heeds config False (VmController.refuse ready reason) := by
  unfold VmController.refuse
  refine keeps_bind heeds_now fun _ => ?_
  split
  · exact keeps_bind (heeds_publish _) fun _ => keeps_pure _
  · exact heeds_recordUnexecuted _ _

theorem heeds_grantFor (ready : Ready) (ceiling : Option Nat) (committed : Nat) :
    Heeds config False (VmController.grantFor ready ceiling committed) := by
  unfold VmController.grantFor
  refine keeps_bind keeps_get fun _ => ?_
  split
  · refine keeps_bind (heeds_ask rfl) fun _ => keeps_bind ?_ fun _ => keeps_pure _
    exact Action.keeps_ofExcept _
  · exact keeps_pure _

theorem heeds_settleCommand (ready : Ready) (now : Nat) (answer : Except ResizeSinkError Unit) :
    Heeds config False (VmController.settleCommand ready now answer) := by
  unfold VmController.settleCommand
  split
  · refine keeps_bind (heeds_ask rfl) fun _ => ?_
    refine keeps_bind (heeds_modify (fun _ => rfl) fun _ => rfl) fun _ => ?_
    exact keeps_bind (heeds_publish _) fun _ => keeps_pure _
  · refine keeps_bind (heeds_setControl fun _ => rfl) fun _ => ?_
    refine keeps_bind (heeds_modify (fun _ => rfl) fun _ => rfl) fun _ => ?_
    exact heeds_recordUnexecuted _ _
  · refine keeps_bind (heeds_latch _) fun _ => ?_
    exact keeps_bind (heeds_publish _) fun _ => keeps_pure _

theorem heeds_execute (ready : Ready) (now grant committed : Nat) :
    Heeds config False (VmController.execute ready now grant committed) := by
  unfold VmController.execute
  refine keeps_bind (heeds_ask rfl) fun _ => ?_
  split
  · exact keeps_pure _
  refine keeps_bind heeds_nextOperationId fun _ => keeps_bind (heeds_admitIfNew _ _ _) fun _ => ?_
  refine keeps_bind (heeds_setControl fun _ => rfl) fun _ => keeps_bind heeds_save fun _ => ?_
  unfold VmController.sendResize
  refine keeps_bind (heeds_modify (fun _ => rfl) fun _ => rfl) fun _ => keeps_bind keeps_get fun _ => ?_
  refine keeps_bind (heeds_ask rfl) fun _ => ?_
  exact keeps_bind (heeds_settleCommand _ _ _) fun _ => keeps_pure _

theorem heeds_acted (ready : Ready) (ceiling : Option Nat) (committed : Nat) :
    Heeds config False (VmController.acted ready ceiling committed) := by
  have huncommitted : ∀ {action : VmAction Step}, Heeds config False action →
      Heeds config False (VmController.uncommitted committed action) :=
    fun h => keeps_bind h fun _ => keeps_pure _
  unfold VmController.acted
  refine keeps_bind ?_ fun outcome => ?_
  · unfold VmController.act
    refine keeps_bind heeds_now fun _ => keeps_bind keeps_tolerance fun _ => ?_
    refine keeps_bind keeps_get fun _ => ?_
    split
    · exact huncommitted (heeds_refuse _ _)
    split
    · exact huncommitted (heeds_refuse _ _)
    refine keeps_bind (heeds_grantFor _ _ _) fun _ => ?_
    split_ifs
    · exact huncommitted (heeds_refuse _ _)
    · exact huncommitted (heeds_recordUnexecuted _ _)
    · exact heeds_execute _ _ _ _
  split
  · exact keeps_bind (heeds_modify (fun _ => rfl) fun _ => rfl) fun _ => keeps_pure _
  · exact keeps_pure _

/-! ## Rounds -/

variable {pool : Option Nat} {configs : List HostConfig} {s : HostRuntime} {W : HostWorld}
  {index : Nat}

/-- The law of every VM. -/
def latchLawAll (configs : List HostConfig) : Monitor HostWorld RuntimeOp RuntimeAns where
  may W
    | .stopRequested => True
    | .vm index op => ∃ config, configs[index]? = some config ∧ (latchLaw config).may (W index) op
  next := HostWorld.next

/-- Every controller knows of its latch. -/
def KnowsAll (configs : List HostConfig) (s : HostRuntime) (W : HostWorld) : Prop :=
  ∀ index vm, s.vms[index]? = some vm →
    ∃ config, configs[index]? = some config ∧ Knows config False vm (W index)

abbrev HeedsAll (configs : List HostConfig) (action : RuntimeAction α) : Prop :=
  Action.Keeps (fun _ _ _ => True) (latchLawAll configs) (KnowsAll configs) action

/-- What every VM keeps for itself, the runtime keeps for it. -/
theorem heedsAll_onVm {action : VmAction α} (h : ∀ config, Heeds config False action) :
    HeedsAll configs (HostRuntime.onVm index action) := by
  intro s W hknows
  unfold Action.relying HostRuntime.onVm
  cases hvm : s.vms[index]? with
  | none => trivial
  | some vm =>
  obtain ⟨config, hconfig, hvmknows⟩ := hknows index vm hvm
  refine Prog.safeIf_bind.mpr ?_
  have hembed := @Prog.SafeIf.embed VmOp RuntimeOp VmAns RuntimeAns _ _ _ (latchLaw config)
    (latchLawAll configs) (fun _ _ _ => True) (fun _ _ _ => True) (.vm index) (fun _ answer => answer)
    (action vm) _ (fun w W' => W' = Function.update W index w) ?_ (fun _ _ _ _ _ _ => trivial) ?_
    (W index) W (h config vm (W index) hvmknows) (Function.update_eq_self index W).symm
  · refine hembed.mono ?_
    rintro ⟨_ | value, vm'⟩ _ ⟨w, rfl, hafter⟩
    · trivial
    · -- The others are as they were.
      intro other vm'' hother
      by_cases hsame : other = index
      · subst hsame
        rw [List.getElem?_set_self (List.getElem?_eq_some_iff.mp hvm).1] at hother
        cases hother
        exact ⟨config, hconfig, by rw [Function.update_self]; exact hafter⟩
      · rw [List.getElem?_set_ne (Ne.symm hsame)] at hother
        rw [Function.update_of_ne hsame]
        exact hknows other vm'' hother
  · rintro w _ op rfl hmay
    refine ⟨config, hconfig, ?_⟩
    rw [Function.update_self]
    exact hmay
  · rintro w _ op answer rfl -
    show Function.update (Function.update W index w) index
      ((Function.update W index w index).next op answer) = Function.update W index (w.next op answer)
    rw [Function.update_self, Function.update_idem]

theorem heedsAll_stopRequested : HeedsAll configs (Action.perform .stopRequested) :=
  Action.keeps_perform fun _ _ h => ⟨trivial, fun _ _ => h⟩

theorem heedsAll_observeFrom (order : List Nat) :
    ∀ (observed : List Observed) (lastStop : Option HostRuntimeError),
      HeedsAll configs (HostRuntime.observeFrom observed lastStop order) := by
  induction order with
  | nil => exact fun _ _ => Action.keeps_pure _
  | cons index order ih =>
      intro observed lastStop
      refine Action.keeps_bind heedsAll_stopRequested fun _ => ?_
      split
      · exact Action.keeps_pure _
      · exact Action.keeps_bind (heedsAll_onVm fun _ => heeds_observed) fun _ => ih _ _

theorem heedsAll_actFrom {observed : List Observed} {ceilings : Option (List PoolAllocation)}
    (order : List Nat) : ∀ (committed : Nat) (lastStop : Option HostRuntimeError),
      HeedsAll configs (HostRuntime.actFrom observed ceilings order committed lastStop) := by
  induction order with
  | nil => exact fun _ _ => Action.keeps_pure _
  | cons index order ih =>
      intro committed lastStop
      refine Action.keeps_bind heedsAll_stopRequested fun _ => ?_
      split
      · exact Action.keeps_pure _
      split
      · exact Action.keeps_bind (heedsAll_onVm fun _ => heeds_acted _ _ _) fun _ => ih _ _
      · exact ih _ _

/-- **A round moves no latched device.** -/
theorem heedsAll_round : HeedsAll configs HostRuntime.round := by
  unfold HostRuntime.round
  refine Action.keeps_bind ?_ fun outcome => ?_
  · unfold HostRuntime.observeAll
    exact Action.keeps_bind Action.keeps_get fun _ => heedsAll_observeFrom _ _ _
  split
  · exact Action.keeps_pure _
  · unfold HostRuntime.actAll
    refine Action.keeps_bind heedsAll_stopRequested fun _ => ?_
    split
    · exact Action.keeps_pure _
    refine Action.keeps_bind Action.keeps_get fun _ => ?_
    refine Action.keeps_bind (Action.keeps_ofExcept _) fun _ => ?_
    refine Action.keeps_bind (heedsAll_actFrom _ _ _) fun _ => ?_
    exact Action.keeps_bind Action.keeps_get fun _ => Action.keeps_pure _

/-! ## Runs -/

variable {labels first second : List Label} {process : Option HostRuntime} {reason : String}

theorem CoupledAll.knows (h : CoupledAll pool configs s W) : KnowsAll configs s W := by
  intro index vm hvm
  obtain ⟨config, hconfig, hcoupled⟩ := h.coupled index vm hvm
  refine ⟨config, hconfig, hcoupled.configured, fun hnone => ?_, False.elim⟩
  rw [← hcoupled.control]
  exact hnone

/-- Every event of a daemon is one the law allows where it stands. -/
def Heeded (configs : List HostConfig) : HostWorld → List Label → Prop
  | _, [] => True
  | W, label :: labels =>
    (∀ event, label = .event event → (latchLawAll configs).may W event.1) ∧
      Heeded configs (HostWorld.step W label) labels

theorem heeded_append : Heeded configs W (first ++ second) ↔
    Heeded configs W first ∧ Heeded configs (HostWorld.after W first) second := by
  induction first generalizing W with
  | nil => simp [Heeded, HostWorld.after]
  | cons label first ih => simp [Heeded, HostWorld.after, ih, and_assoc]

theorem heeded_events {events : List (Event RuntimeAns)}
    (h : (latchLawAll configs).Accepts W events) : Heeded configs W (events.map .event) := by
  induction events generalizing W with
  | nil => trivial
  | cons event events ih => exact ⟨by rintro _ ⟨⟩; exact h.1, ih h.2⟩

theorem heeded_operated {events : List (Event VmAns)} :
    Heeded configs W (events.map (.operated index)) := by
  induction events generalizing W with
  | nil => trivial
  | cons event events ih => exact ⟨by rintro _ ⟨⟩, ih⟩

theorem round_heeded {events : List (Event RuntimeAns)}
    {result : Option (Except HostRuntimeError Step × HostRuntime)}
    (h : CoupledAll pool configs s W) (hruns : (HostRuntime.round s).Runs events result) :
    Heeded configs W (.round :: events.map .event) := by
  have hexpects : ∀ events W, (latchLawAll configs).Expects (fun _ _ _ => True) W events := by
    intro events
    induction events with
    | nil => exact fun _ => trivial
    | cons event events ih => exact fun _ => ⟨trivial, ih _⟩
  exact ⟨by rintro _ ⟨⟩, heeded_events (heedsAll_round.runs h.stale.knows hruns (hexpects _ _)).1⟩

/-- **No daemon moves a latched device.** -/
theorem hostRun_heeded (h : HostRun pool configs labels process) :
    Heeded configs .initial labels := by
  induction h with
  | fresh => trivial
  | start fingerprint pid _ _ _ ih =>
      exact heeded_append.mpr ⟨ih, by rintro _ ⟨⟩, trivial⟩
  | round hrun hruns ih | exit hrun hruns ih =>
      exact heeded_append.mpr ⟨ih, round_heeded ((hostRun_lawful hrun).2 _ rfl) hruns⟩
  | clear _ _ _ ih => exact heeded_append.mpr ⟨ih, by rintro _ ⟨⟩, heeded_operated⟩

/-- A resize is armed on an unlatched VM. -/
def ArmedFree (w : VmWorld) : Prop := w.phase = .armed → w.control.latchReason = none

theorem Writes.armed {stage : Stage} {control : DurableControlState}
    (h : Writes config stage w control) (hidle : w.control.intent = none)
    (hintent : control.intent.isSome) : control.latchReason = none := by
  cases h with
  | begin _ _ _ _ _ hunlatched => exact hunlatched
  | resolve | release => cases hintent
  | latch | unexecuted =>
      rw [hidle] at hintent
      cases hintent
  | extend _ _ hsome | restore _ _ hsome | settle _ _ hsome =>
      rw [hidle] at hsome
      cases hsome

theorem ArmedFree.next {op : VmOp} (h : ArmedFree w) (answer : VmAns op)
    (hwrites : ∀ file, op = .persist file → w.control.intent = none → file.control.intent.isSome →
      file.control.latchReason = none) : ArmedFree (w.next op answer) := by
  intro hphase
  by_cases hpersist : ∃ file, op = .persist file
  · obtain ⟨file, rfl⟩ := hpersist
    obtain ⟨hcontrol, hidle, hintent⟩ := VmWorld.armed_persist hphase
    show (w.persist file answer).control.latchReason = none
    rw [hcontrol]
    exact hwrites file rfl hidle hintent
  · have hother : ∀ file, op ≠ .persist file := fun file hfile => hpersist ⟨file, hfile⟩
    rcases w.control_next answer with hsame | ⟨file, hfile, -⟩
    · rw [hsame]
      exact h (VmWorld.armed_next hother hphase)
    · exact absurd hfile (hother file)

theorem Lawful.armedFree (h : Lawful pool configs .initial labels) :
    ArmedFree (HostWorld.after .initial labels index) := by
  refine h.invariant (fun _ _ hphase => ?_) (fun _ h => h) ?_ ?_ fun hphase => ?_
  · cases hphase
  · intro config w stage committed op answer _ hI hmay
    refine hI.next answer ?_
    rintro file rfl
    exact Writes.armed hmay
  · intro w op answer hI hmay
    refine hI.next answer ?_
    rintro file rfl - hintent
    obtain ⟨live, now, reason, journal, -, -, -, -, hcontrol⟩ := hmay
    rw [hcontrol] at hintent
    cases hintent
  · cases hphase

/-- **A command is sent to a VM that may be sent commands.** -/
theorem hostRun_actuated {op : VmOp} {answer : VmAns op}
    (h : HostRun pool configs (first ++ .event ⟨.vm index op, answer⟩ :: second) process)
    (hactuates : op.actuates = true) : ∃ config, configs[index]? = some config ∧
      Actuated config (HostWorld.after .initial first index).control := by
  obtain ⟨hbefore, hallowed, -⟩ := lawful_append.mp (hostRun_lawful h).1
  obtain ⟨config, stage, committed, hconfig, hmay⟩ := hallowed.may
  refine ⟨config, hconfig, ?_⟩
  cases op with
  | requestResize request expected target authorize =>
      exact ⟨hbefore.armedFree hmay.1, hmay.2.1⟩
  | retargetPending | widenUsableRegion =>
      obtain ⟨config', hconfig', hfree⟩ := (heeded_append.mp (hostRun_heeded h)).2.1 _ rfl
      cases hconfig.symm.trans hconfig'
      exact hfree rfl
  | _ => cases hactuates

/-- A latch is only taken back by the operator. -/
theorem Writes.latched {stage : Stage} {control : DurableControlState}
    (h : Writes config stage w control) (hlatched : w.control.latchReason = some reason) :
    control.latchReason = some reason := by
  cases h with
  | begin _ _ _ _ _ hunlatched | latch _ hunlatched =>
      rw [hunlatched] at hlatched
      cases hlatched
  | _ => exact hlatched

/-- The labels write no clearing of the VM. -/
def Uncleared (index : Nat) (labels : List Label) : Prop :=
  ∀ file answer, .operated index ⟨.persist file, answer⟩ ∉ labels

theorem latched_step {label : Label} (hallowed : Allowed pool configs W label)
    (hkept : ∀ file answer, label ≠ .operated index ⟨.persist file, answer⟩)
    (hlatched : (W index).control.latchReason = some reason) :
    (HostWorld.step W label index).control.latchReason = some reason := by
  cases label with
  | started | round => exact hlatched
  | event event =>
      obtain ⟨_ | ⟨other, op⟩, answer⟩ := event
      · exact hlatched
      by_cases hother : index = other
      · subst hother
        obtain ⟨config, stage, committed, -, hmay⟩ := hallowed.may
        rw [HostWorld.step_self]
        -- Only a write changes the record, and the daemon writes no clearing.
        rcases (W index).control_next answer with hsame | ⟨file, rfl, hfile⟩
        · rw [hsame]
          exact hlatched
        · rw [hfile]
          exact Writes.latched hmay hlatched
      · show (Function.update W other _ index).control.latchReason = some reason
        rw [Function.update_of_ne hother]
        exact hlatched
  | operated other event =>
      obtain ⟨op, answer⟩ := event
      show (Function.update W other ((W other).next op answer) index).control.latchReason = some reason
      by_cases hother : index = other
      · subst hother
        rw [Function.update_self]
        rcases (W index).control_next answer with hsame | ⟨file, rfl, -⟩
        · rw [hsame]
          exact hlatched
        · exact absurd rfl (hkept file answer)
      · rw [Function.update_of_ne hother]
        exact hlatched

theorem Lawful.latched (h : Lawful pool configs W labels) (hkept : Uncleared index labels)
    (hlatched : (W index).control.latchReason = some reason) :
    (HostWorld.after W labels index).control.latchReason = some reason := by
  induction labels generalizing W with
  | nil => exact hlatched
  | cons label labels ih =>
      refine ih h.2 (fun file answer hmem => hkept file answer (List.mem_cons_of_mem _ hmem)) ?_
      refine latched_step h.1 (fun file answer heq => hkept file answer ?_) hlatched
      exact heq ▸ List.mem_cons_self

/-- **A latched VM is left alone until it is cleared.** From any point of any run at which a latch is on
disk, over the rounds, crashes and restarts that follow, and until the operator writes a clearing of the
VM: the latch and its reason stay on disk, and no command is sent to its device. -/
theorem latched_inert (h : HostRun pool configs (first ++ second) process)
    (hlatched : (HostWorld.after .initial first index).control.latchReason = some reason)
    (hkept : Uncleared index second) :
    (HostWorld.after .initial (first ++ second) index).control.latchReason = some reason ∧
      ∀ op answer, op.actuates = true → .event ⟨.vm index op, answer⟩ ∉ second := by
  have hlawful := (lawful_append.mp (hostRun_lawful h).1).2
  constructor
  · rw [HostWorld.after_append]
    exact hlawful.latched hkept hlatched
  · intro op answer hactuates hmem
    obtain ⟨before, after, rfl⟩ := List.append_of_mem hmem
    rw [← List.append_assoc] at h
    obtain ⟨config, -, hfree, -⟩ := hostRun_actuated h hactuates
    -- The latch is still there when the command is sent.
    have hstill := (lawful_append.mp hlawful).1.latched
      (fun file answer hmem => hkept file answer (List.mem_append_left _ hmem)) hlatched
    rw [← HostWorld.after_append, hfree] at hstill
    cases hstill

/-! The addition whose device was lost (`lostLabels`), and a new request two minutes later. -/

def laterAdd : MemoryRequest := exampleRequest .add (2 ^ 30) 300000

def laterScript : Script :=
  { exampleScript { examplePublication (6 * 2 ^ 30) laterAdd with observedUnixMillis := 300000 } with
    instant := 120000000000, unixMillis := 320000 }

def lost : List Label × HostRuntime × Devices :=
  Script.rounds [grantedScript, lostScript] exampleRuntime grantedDevices

def laterLabels : List Label := (Script.rounds [laterScript] lost.2.1 lost.2.2).1

theorem later_run : ∃ s, HostRun none [exampleConfig] (lostLabels ++ laterLabels) (some s) := by
  have hlost : HostRun none [exampleConfig] lostLabels (some lost.2.1) :=
    (Script.playable_run exampleRuntime_run (by decide +kernel :
      Script.playable [grantedScript, lostScript] exampleRuntime grantedDevices = true)).1
  exact ⟨_, (Script.playable_run hlost (by decide +kernel :
    Script.playable [laterScript] lost.2.1 lost.2.2 = true)).1⟩

/-- The rounds of a daemon are none of the operator's. -/
theorem uncleared_rounds (scripts : List Script) (s : HostRuntime) (D : Devices) :
    Uncleared index (Script.rounds scripts s D).1 := by
  induction scripts generalizing s D with
  | nil => exact fun _ _ => List.not_mem_nil
  | cons script scripts ih =>
      intro file answer hmem
      simp only [Script.rounds, List.cons_append, List.mem_cons, List.mem_append, List.mem_map] at hmem
      rcases hmem with hround | ⟨event, -, hevent⟩ | hrest
      · cases hround
      · cases hevent
      · exact ih _ _ file answer hrest

theorem later_inert : (HostWorld.after .initial (lostLabels ++ laterLabels) 0).control.latched = true ∧
    ∀ op answer, op.actuates = true → .event ⟨.vm 0 op, answer⟩ ∉ laterLabels := by
  obtain ⟨s, hrun⟩ := later_run
  obtain ⟨reason, hreason⟩ := Option.isSome_iff_exists.mp lost_latched
  obtain ⟨hstill, hnone⟩ := latched_inert hrun hreason (uncleared_rounds _ _ _)
  exact ⟨Option.isSome_iff_exists.mpr ⟨reason, hstill⟩, hnone⟩

/-- **A VM that is only observed gets no command**, in any run. -/
theorem observed_only_inert (h : HostRun pool configs labels process)
    (hconfig : configs[index]? = some config) (hobserve : config.observeOnly = true) (op : VmOp)
    (answer : VmAns op) (hactuates : op.actuates = true) :
    .event ⟨.vm index op, answer⟩ ∉ labels := by
  intro hmem
  obtain ⟨before, after, rfl⟩ := List.append_of_mem hmem
  obtain ⟨config', hconfig', -, hfree⟩ := hostRun_actuated h hactuates
  cases hconfig.symm.trans hconfig'
  rw [hobserve] at hfree
  cases hfree

def observedConfig : HostConfig := { exampleConfig with observeOnly := true }

def observedRuntime : HostRuntime where
  vms := [.new observedConfig 1 (⟨"guest", "memory0", "", none⟩, .fresh)]
  poolBytes := none

/-- One round of a daemon that only observes, on a publication that asks for an addition. -/
def observed : List Label × HostRuntime × Devices :=
  Script.rounds [grantedScript] observedRuntime grantedDevices

theorem observed_inert : HostRun none [observedConfig] ([.started] ++ observed.1) (some observed.2.1) ∧
    ∀ op answer, op.actuates = true → .event ⟨.vm 0 op, answer⟩ ∉ [.started] ++ observed.1 := by
  have hstart : HostRun none [observedConfig] [.started] (some observedRuntime) :=
    .start (fun _ => "") 1 (by decide) .fresh rfl
  have hrun := (Script.playable_run hstart (by decide +kernel :
    Script.playable [grantedScript] observedRuntime grantedDevices = true)).1
  exact ⟨hrun, fun op answer => observed_only_inert hrun rfl rfl op answer⟩

end VirtioMem.Host
