import VirtioMem.Host.Rounds
import VirtioMem.Host.Operator

/-!
# Runs of the host

A daemon is started from what is on disk, runs rounds, and ends: with an error, a stop or a crash at
any point. Between two daemons the operator may clear latches. `HostRun` lists what all of that does,
label by label, and `HostWorld.after` is what an observer of the labels knows.

Every run is lawful (`hostRun_lawful`): each label is allowed where it stands, by the protocol of a
round or by that of a clearing. `Lawful.invariant` is how a property of one VM is proved from that.
-/

namespace VirtioMem.Host

open VirtioMem.Core VirtioMem.Effect VirtioMem.Word

/-! ## Starting -/

/-- Open the checkpoint of every VM. -/
def openAll (fingerprint : Nat → String) (process : Nat) (disk : Nat → Option CheckpointFile) :
    List HostConfig → Nat → Except String (List VmController)
  | [], _ => .ok []
  | config :: configs, index =>
    match Checkpoint.openFile config (fingerprint index) (disk index) with
    | .error error => .error error
    | .ok opened =>
      match openAll fingerprint process disk configs (index + 1) with
      | .error error => .error error
      | .ok vms => .ok (VmController.new config process opened :: vms)

namespace HostRuntime

def new (vms : List VmController) (poolBytes : Option Nat) : Except HostRuntimeError HostRuntime :=
  if vms.isEmpty then .error (.controller "no VMs to control") else .ok ⟨vms, poolBytes⟩

/-- The runtime of a new process. -/
def start (pool : Option Nat) (configs : List HostConfig) (fingerprint : Nat → String)
    (process : Nat) (disk : Nat → Option CheckpointFile) : Except HostRuntimeError HostRuntime :=
  match openAll fingerprint process disk configs 0 with
  | .error error => .error (.controller error)
  | .ok vms => new vms pool

end HostRuntime

/-! ## Labels -/

/-- One event of a run. -/
inductive Label where
  /-- A process starts: a daemon, or the operator's tool. -/
  | started
  /-- A round begins. -/
  | round
  | event (event : Event RuntimeAns)
  /-- An event of a clearing. -/
  | operated (index : Nat) (event : Event VmAns)

namespace HostWorld

def initial : HostWorld := fun _ => .initial

def step (W : HostWorld) : Label → HostWorld
  | .started => fun index => (W index).restart
  | .round => fun index => (W index).stale
  | .event event => HostWorld.next W event.1 event.2
  | .operated index event => Function.update W index ((W index).next event.1 event.2)

/-- What an observer of the labels knows. -/
def after (W : HostWorld) (labels : List Label) : HostWorld := labels.foldl step W

theorem after_append (W : HostWorld) (first second : List Label) :
    after W (first ++ second) = after (after W first) second := List.foldl_append ..

theorem after_events (pool : Option Nat) (configs : List HostConfig) (W : HostWorld)
    (events : List (Event RuntimeAns)) :
    after W (events.map .event) = (hostLaw pool configs).after W events := by
  unfold after Monitor.after
  rw [List.foldl_map]
  rfl

end HostWorld

/-- What may happen next. -/
def Allowed (pool : Option Nat) (configs : List HostConfig) (W : HostWorld) : Label → Prop
  | .started | .round => True
  | .event event => (hostLaw pool configs).may W event.1
  | .operated index event => (W index).MayOperate event.1

/-- Every label is allowed where it stands. -/
def Lawful (pool : Option Nat) (configs : List HostConfig) : HostWorld → List Label → Prop
  | _, [] => True
  | W, label :: labels =>
    Allowed pool configs W label ∧ Lawful pool configs (HostWorld.step W label) labels

variable {pool : Option Nat} {configs : List HostConfig} {config : HostConfig} {W : HostWorld}
  {index : Nat} {labels : List Label} {process : Option HostRuntime}

theorem lawful_append {first second : List Label} :
    Lawful pool configs W (first ++ second) ↔
      Lawful pool configs W first ∧ Lawful pool configs (HostWorld.after W first) second := by
  induction first generalizing W with
  | nil => simp [Lawful, HostWorld.after]
  | cons label first ih => simp [Lawful, HostWorld.after, ih, and_assoc]

theorem lawful_events {events : List (Event RuntimeAns)} :
    Lawful pool configs W (events.map .event) ↔ (hostLaw pool configs).Accepts W events := by
  induction events generalizing W with
  | nil => exact Iff.rfl
  | cons event events ih => exact and_congr_right fun _ => ih

theorem lawful_operated {events : List (Event VmAns)} (w : VmWorld) (hw : W index = w)
    (h : operatorLaw.Accepts w events) :
    Lawful pool configs W (events.map (.operated index)) := by
  induction events generalizing W w with
  | nil => trivial
  | cons event events ih =>
      subst hw
      refine ⟨h.1, ih ((W index).next event.1 event.2) ?_ h.2⟩
      exact Function.update_self ..

/-- What a lawful label finds at a command. -/
theorem Allowed.may {op : VmOp} {answer : VmAns op}
    (h : Allowed pool configs W (.event ⟨.vm index op, answer⟩)) :
    ∃ config stage committed, configs[index]? = some config ∧
      (W index).May config stage committed op := by
  obtain ⟨committed, ⟨config, stage, hconfig, hmay⟩, -⟩ := h
  exact ⟨config, stage, committed, hconfig, hmay⟩

theorem HostWorld.step_self (W : HostWorld) {op : VmOp} (answer : VmAns op) :
    HostWorld.step W (.event ⟨.vm index op, answer⟩) index = (W index).next op answer :=
  Function.update_self ..

/-! ## Runs -/

/-- **Every run of the host**, daemon after daemon, from fresh checkpoints. -/
inductive HostRun (pool : Option Nat) (configs : List HostConfig) :
    List Label → Option HostRuntime → Prop
  | fresh : HostRun pool configs [] none
  | start {labels : List Label} {s : HostRuntime} (fingerprint : Nat → String) (process : Nat)
      (hprocess : process < 2 ^ 32) (h : HostRun pool configs labels none)
      (hstart : HostRuntime.start pool configs fingerprint process
        (fun index => (HostWorld.after .initial labels index).disk) = .ok s) :
      HostRun pool configs (labels ++ [.started]) (some s)
  /-- A round after which the daemon goes on. -/
  | round {labels : List Label} {s s' : HostRuntime} {events : List (Event RuntimeAns)}
      (h : HostRun pool configs labels (some s))
      (hruns : (HostRuntime.round s).Runs events (some (.ok .wait, s'))) :
      HostRun pool configs (labels ++ .round :: events.map .event) (some s')
  /-- A round in which the daemon ends, wherever it is cut. -/
  | exit {labels : List Label} {s : HostRuntime} {events : List (Event RuntimeAns)}
      {result : Option (Except HostRuntimeError Step × HostRuntime)}
      (h : HostRun pool configs labels (some s)) (hruns : (HostRuntime.round s).Runs events result) :
      HostRun pool configs (labels ++ .round :: events.map .event) none
  /-- A clearing, wherever it is cut. -/
  | clear {labels : List Label} {index : Nat} {config : HostConfig} {fingerprint reason : String}
      {apply : Bool} {events : List (Event VmAns)} {result : Option (Except String String × Unit)}
      (h : HostRun pool configs labels none) (hconfig : configs[index]? = some config)
      (hruns : (Operator.runClearLatch config fingerprint reason apply
        (HostWorld.after .initial labels index).disk ()).Runs events result) :
      HostRun pool configs (labels ++ .started :: events.map (.operated index)) none

/-! ## Every run is lawful -/

/-- What a step of the protocols keeps for one VM, a lawful run keeps. -/
theorem Lawful.invariant {I : VmWorld → Prop} (hrestart : ∀ w, I w → I w.restart)
    (hstale : ∀ w, I w → I w.stale)
    (hnext : ∀ config w stage committed op answer, configs[index]? = some config → I w →
      w.May config stage committed op → I (w.next op answer))
    (hoperate : ∀ w op answer, I w → w.MayOperate op → I (w.next op answer))
    (h : Lawful pool configs W labels) (hI : I (W index)) :
    I (HostWorld.after W labels index) := by
  induction labels generalizing W with
  | nil => exact hI
  | cons label labels ih =>
      apply ih h.2
      cases label with
      | started => exact hrestart _ hI
      | round => exact hstale _ hI
      | event event =>
          obtain ⟨op, answer⟩ := event
          cases op with
          | stopRequested => exact hI
          | vm other op =>
              -- A step of another VM does not touch this one.
              by_cases hother : other = index
              · subst hother
                obtain ⟨committed, ⟨config, stage, hconfig, hmay⟩, -⟩ := h.1
                show I (Function.update W other ((W other).next op answer) other)
                rw [Function.update_self]
                exact hnext _ _ _ _ _ _ hconfig hI hmay
              · show I (Function.update W other ((W other).next op answer) index)
                rw [Function.update_of_ne (Ne.symm hother)]
                exact hI
      | operated other event =>
          show I (Function.update W other ((W other).next event.1 event.2) index)
          by_cases hother : other = index
          · subst hother
            rw [Function.update_self]
            exact hoperate _ _ _ hI h.1
          · rw [Function.update_of_ne (Ne.symm hother)]
            exact hI

theorem VmWorld.control_persist {w : VmWorld} {file : CheckpointFile} (saved : Saved) :
    (w.persist file saved).control = w.control ∨ (w.persist file saved).control = file.control := by
  match saved with
  | .written => exact .inr rfl
  | .failed _ true => exact .inr rfl
  | .failed _ false => exact .inl rfl

/-- Only a write changes what is on disk. -/
theorem VmWorld.control_next (w : VmWorld) {op : VmOp} (answer : VmAns op) :
    (w.next op answer).control = w.control ∨
      ∃ file, op = .persist file ∧ (w.next op answer).control = file.control := by
  cases op with
  | persist file =>
      rcases w.control_persist answer with h | h
      · exact .inl h
      · exact .inr ⟨file, rfl, h⟩
  | memoryState =>
      left
      show (w.read answer).control = w.control
      unfold VmWorld.read
      split <;> rfl
  | widenUsableRegion expected =>
      left
      show (w.widen answer).control = w.control
      unfold VmWorld.widen
      split <;> rfl
  | _ => exact .inl rfl

/-- A reading is not accepted, or it is what an observer knows from then on. -/
theorem VmWorld.read_cases (w : VmWorld) (answer : Except String VirtioMemState) :
    w.read answer = { w with charge := w.remembered } ∨
      ∃ state, answer = .ok state ∧ state.Valid ∧ w.read answer = { w with
        live := some state
        fresh := true
        remembered := some (VmController.chargeOf w.control state)
        charge := some (VmController.chargeOf w.control state) } := by
  cases answer with
  | error error => exact .inl rfl
  | ok state =>
      unfold VmWorld.read VmWorld.accepted
      dsimp only
      by_cases hvalid : state.validate = .ok ()
      · rw [if_pos hvalid]
        exact .inr ⟨state, rfl, VirtioMemState.validate_eq_ok.mp hvalid, rfl⟩
      · rw [if_neg hvalid]
        exact .inl rfl

@[simp] theorem VmWorld.persist_live (w : VmWorld) (file : CheckpointFile) (saved : Saved) :
    (w.persist file saved).live = w.live := by
  match saved with
  | .written => rfl
  | .failed _ true => rfl
  | .failed _ false => rfl

@[simp] theorem VmWorld.persist_fresh (w : VmWorld) (file : CheckpointFile) (saved : Saved) :
    (w.persist file saved).fresh = w.fresh := by
  match saved with
  | .written => rfl
  | .failed _ true => rfl
  | .failed _ false => rfl

/-- Only a write that starts something makes a command due. -/
theorem VmWorld.armed_persist {w : VmWorld} {file : CheckpointFile} {saved : Saved}
    (h : (w.persist file saved).phase = .armed) :
    (w.persist file saved).control = file.control ∧ w.control.intent = none ∧
      file.control.intent.isSome := by
  match saved with
  | .written =>
      refine ⟨rfl, ?_⟩
      simp only [VmWorld.persist] at h
      split at h
      · next hstarts => simpa using hstarts
      · cases h
  | .failed _ true => cases h
  | .failed _ false => cases h

theorem VmWorld.armed_next {w : VmWorld} {op : VmOp} {answer : VmAns op}
    (hop : ∀ file, op ≠ .persist file) (h : (w.next op answer).phase = .armed) :
    w.phase = .armed := by
  cases op with
  | persist file => exact absurd rfl (hop file)
  | memoryState =>
      change (w.read answer).phase = .armed at h
      unfold VmWorld.read at h
      split at h <;> exact h
  | widenUsableRegion expected =>
      change (w.widen answer).phase = .armed at h
      unfold VmWorld.widen at h
      split at h <;> exact h
  | requestResize request expected target authorize =>
      change (if _ then Phase.rejected else Phase.idle) = .armed at h
      split at h <;> cases h
  | _ => exact h

theorem ControlInv.next {w : VmWorld} {stage : Stage} {committed : Nat} {op : VmOp}
    (h : ControlInv w.control) (hmay : w.May config stage committed op) (answer : VmAns op) :
    ControlInv (w.next op answer).control := by
  rcases w.control_next answer with hsame | ⟨file, rfl, hfile⟩
  · rw [hsame]
    exact h
  · rw [hfile]
    exact Writes.inv h hmay

theorem ControlInv.operate {w : VmWorld} {op : VmOp} (h : ControlInv w.control)
    (hmay : w.MayOperate op) (answer : VmAns op) : ControlInv (w.next op answer).control := by
  rcases w.control_next answer with hsame | ⟨file, rfl, hfile⟩
  · rw [hsame]
    exact h
  · obtain ⟨live, now, reason, journal, -, -, -, hcleared, hcontrol⟩ := hmay
    rw [hfile, hcontrol]
    exact (h.of_cleared hcleared).1

/-- **Every saved control state satisfies the invariant.** -/
theorem Lawful.controlInv (h : Lawful pool configs W labels) (hinv : ControlInv (W index).control) :
    ControlInv (HostWorld.after W labels index).control :=
  @Lawful.invariant _ _ _ _ _ (fun w => ControlInv w.control) (fun _ h => h) (fun _ h => h)
    (fun _ _ _ _ _ answer _ h hmay => h.next hmay answer)
    (fun _ _ answer h hmay => h.operate hmay answer) h hinv

/-- The controllers of a new process, each with the checkpoint that was opened. -/
theorem openAll_opened {fingerprint : Nat → String} {pid : Nat}
    {disk : Nat → Option CheckpointFile} {configs : List HostConfig} {first : Nat}
    {vms : List VmController} (h : openAll fingerprint pid disk configs first = .ok vms) :
    vms.length = configs.length ∧ ∀ index vm, vms[index]? = some vm → ∃ config opened,
      configs[index]? = some config ∧
        Checkpoint.openFile config (fingerprint (first + index)) (disk (first + index)) =
          .ok opened ∧ vm = VmController.new config pid opened := by
  induction configs generalizing first vms with
  | nil =>
      cases h
      refine ⟨rfl, ?_⟩
      intro index vm hvm
      simp at hvm
  | cons config configs ih =>
      rw [openAll] at h
      generalize hopened : Checkpoint.openFile config (fingerprint first) (disk first) = opened at h
      cases opened with
      | error error => cases h
      | ok opened =>
      generalize hrest : openAll fingerprint pid disk configs (first + 1) = rest at h
      cases rest with
      | error error => cases h
      | ok rest =>
      cases h
      obtain ⟨hlength, hvms⟩ := ih hrest
      refine ⟨congrArg (· + 1) hlength, ?_⟩
      intro index vm hvm
      cases index with
      | zero =>
          cases hvm
          exact ⟨config, opened, rfl, hopened, rfl⟩
      | succ index =>
          obtain ⟨config', opened', hconfig, hopened', rfl⟩ := hvms index vm hvm
          rw [Nat.add_assoc, Nat.add_comm 1] at hopened'
          exact ⟨config', opened', hconfig, hopened', rfl⟩

theorem openAll_ok {fingerprint : Nat → String} {pid : Nat} {disk : Nat → Option CheckpointFile}
    {configs : List HostConfig} {first : Nat} {vms : List VmController}
    (h : openAll fingerprint pid disk configs first = .ok vms) :
    vms.length = configs.length ∧ ∀ index vm, vms[index]? = some vm → ∃ config checkpoint,
      configs[index]? = some config ∧
        vm = VmController.new config pid (checkpoint, controlOf (disk (first + index))) := by
  obtain ⟨hlength, hvms⟩ := openAll_opened h
  refine ⟨hlength, ?_⟩
  intro index vm hvm
  obtain ⟨config, opened, hconfig, hopened, rfl⟩ := hvms index vm hvm
  exact ⟨config, opened.1, hconfig, by rw [← openWith_control hopened]⟩

/-- A new process agrees with what is on disk. -/
theorem start_coupled {fingerprint : Nat → String} {pid : Nat} {s : HostRuntime}
    (hinv : ∀ index, ControlInv (W index).control)
    (h : HostRuntime.start pool configs fingerprint pid (fun index => (W index).disk) = .ok s) :
    CoupledAll pool configs s (HostWorld.step W .started) := by
  unfold HostRuntime.start at h
  split at h
  · cases h
  next vms hvms =>
  obtain ⟨hlength, hopened⟩ := openAll_ok hvms
  unfold HostRuntime.new at h
  split_ifs at h
  cases h
  refine ⟨rfl, hlength, ?_⟩
  intro index vm hvm
  obtain ⟨config, checkpoint, hconfig, rfl⟩ := hopened index vm hvm
  refine ⟨config, hconfig, ?_⟩
  rw [Nat.zero_add]
  exact {
    configured := rfl
    inv := hinv index
    remembered := rfl
    outstanding := rfl
    control := rfl
    phase := rfl }

theorem CoupledAll.stale {s : HostRuntime} (h : CoupledAll pool configs s W) :
    CoupledAll pool configs s (HostWorld.step W .round) where
  poolBytes := h.poolBytes
  length := h.length
  coupled := by
    intro index vm hvm
    obtain ⟨config, hconfig, hcoupled⟩ := h.coupled index vm hvm
    exact ⟨config, hconfig, ⟨hcoupled.configured, hcoupled.inv, hcoupled.remembered,
      hcoupled.outstanding⟩, hcoupled.control, hcoupled.phase⟩

/-- A round, cut or not, is lawful, and a daemon that goes on agrees again. -/
theorem round_lawful {s : HostRuntime} {events : List (Event RuntimeAns)}
    {result : Option (Except HostRuntimeError Step × HostRuntime)}
    (h : CoupledAll pool configs s W) (hruns : (HostRuntime.round s).Runs events result) :
    Lawful pool configs W (.round :: events.map .event) ∧
      ∀ step s', result = some (.ok step, s') →
        CoupledAll pool configs s' (HostWorld.after W (.round :: events.map .event)) := by
  obtain ⟨haccepts, hpost⟩ := (round_safe h.stale).accepts hruns
  refine ⟨⟨trivial, lawful_events.mpr haccepts⟩, ?_⟩
  rintro step s' rfl
  show CoupledAll pool configs s' (HostWorld.after (HostWorld.step W .round) _)
  rw [HostWorld.after_events pool configs]
  exact hpost _ rfl step rfl

/-- **Every run is lawful**, and a running daemon agrees with what an observer knows. -/
theorem hostRun_lawful (h : HostRun pool configs labels process) :
    Lawful pool configs .initial labels ∧
      ∀ s, process = some s → CoupledAll pool configs s (HostWorld.after .initial labels) := by
  induction h with
  | fresh => exact ⟨trivial, nofun⟩
  | start fingerprint pid _ _ hstart ih =>
      refine ⟨lawful_append.mpr ⟨ih.1, trivial, trivial⟩, ?_⟩
      rintro _ ⟨⟩
      rw [HostWorld.after_append]
      exact start_coupled (fun index => ih.1.controlInv controlInv_fresh) hstart
  | round _ hruns ih =>
      obtain ⟨hlawful, hpost⟩ := round_lawful (ih.2 _ rfl) hruns
      refine ⟨lawful_append.mpr ⟨ih.1, hlawful⟩, ?_⟩
      rintro _ ⟨⟩
      rw [HostWorld.after_append]
      exact hpost _ _ rfl
  | exit _ hruns ih =>
      exact ⟨lawful_append.mpr ⟨ih.1, (round_lawful (ih.2 _ rfl) hruns).1⟩, nofun⟩
  | @clear labels index config fingerprint reason apply events result _ hconfig hruns ih =>
      refine ⟨lawful_append.mpr ⟨ih.1, trivial, ?_⟩, nofun⟩
      have hoperates := @operates_runClearLatch (HostWorld.after .initial labels index).restart config
        fingerprint reason apply
      exact lawful_operated _ rfl (Prog.Safe.accepts hoperates hruns).1

end VirtioMem.Host
