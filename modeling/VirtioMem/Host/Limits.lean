import VirtioMem.Host.Removal

/-!
# The limits of the guest's RAM

`min_ram` and `max_ram` bound the guest's whole RAM: a base `B` that is not the device's, and the
device's allocation. The host knows neither apart. It takes what the guest has counted as its RAM and
subtracts what it has just read from the device itself, so its base is `B` only if the device has not
moved between the two.

If it has, the base is off by as much, and in the direction of the movement: a device that has grown
since the guest counted leaves a base that is too small, which lets an addition past `max_ram`, and one
that has shrunk a base that is too large, which lets a removal past `min_ram`. In the other direction
the error is on the safe side (`grants_within_limits`).
-/

namespace VirtioMem.Host

open VirtioMem.Core VirtioMem.Effect VirtioMem.Word

variable {pool : Option Nat} {configs : List HostConfig} {config : HostConfig} {index : Nat}
  {process : Option HostRuntime} {request : MemoryRequest} {w : VmWorld} {labels : List Label}
  {stage : Stage} {committed base sampled target : Nat} {expected : VirtioMemState}
  {envelope : RawTelemetryEnvelope}

/-- What every command has to leave the guest: an addition stays below the maximum, a removal and its
extensions above the minimum. -/
def WithinLimits (config : HostConfig) (base : Nat) (w : VmWorld) : Command → Prop
  | .resize request _ target _ =>
      match request.operation with
      | .add => base + target ≤ (config.maxRam : Nat)
      | .remove => (config.minRam : Nat) ≤ base + target
  | .retarget _ target => ∀ intent, w.control.intent = some intent → intent.direction = .shrink →
      (config.minRam : Nat) ≤ base + target
  | .widen _ => True

/-- The device has not moved the wrong way since the guest counted its RAM. -/
def SafeSide (sampled : Nat) : Command → Prop
  | .resize request expected _ _ =>
      match request.operation with
      | .add => expected.currentBytes ≤ sampled
      | .remove => sampled ≤ expected.currentBytes
  | .retarget expected _ => sampled ≤ expected.currentBytes
  | .widen _ => True

/-- **Where the error is on the safe side, a command respects the limits.** -/
theorem VmWorld.May.withinLimits {command : Command}
    (h : w.May config stage committed command.op) (hguest : w.guest = some envelope)
    (hcounted : envelope.memory.physicalTotalBytes = base + sampled)
    (hsafe : SafeSide sampled command) : WithinLimits config base w command := by
  cases command with
  | resize request expected target authorize =>
      obtain ⟨-, -, -, -, -, -, -, -, -, other, ceiling, hother, -, hgranted⟩ := h
      rw [hguest] at hother
      cases hother
      have htotal := hgranted.counted
      simp only [SafeSide] at hsafe
      simp only [WithinLimits]
      cases hoperation : request.operation with
      | add =>
          rw [hoperation] at hsafe
          obtain ⟨-, -, hmaximum, -⟩ := hgranted.add hoperation
          dsimp only at hsafe ⊢
          omega
      | remove =>
          rw [hoperation] at hsafe
          obtain ⟨-, -, hminimum⟩ := hgranted.remove hoperation
          dsimp only at hsafe ⊢
          omega
  | retarget expected target =>
      obtain ⟨-, -, -, -, intent, hintent, -, hretargets⟩ := h
      intro other hother hdirection
      rw [hintent] at hother
      cases hother
      cases hretargets with
      | settle _ hsettles => exact absurd hdirection hsettles
      | extend _ _ hread htotal hminimum =>
          rw [hguest] at hread
          cases hread
          simp only [SafeSide] at hsafe
          omega
  | widen expected => trivial

/-- **Host grants respect the limits where the sample is on the safe side.** In every run, every command
sent on a publication that counts `B` and some earlier allocation `s` leaves the guest within its
limits, if the device had not grown from `s` for an addition, and had not shrunk from `s` for a removal
or its extension. -/
theorem grants_within_limits {before after : List Label} {command : Command}
    {answer : VmAns command.op} (h : HostRun pool configs labels process)
    (hlabels : labels = before ++ .event ⟨.vm index command.op, answer⟩ :: after)
    (hconfig : configs[index]? = some config)
    (hguest : (HostWorld.after .initial before index).guest = some envelope)
    (hcounted : envelope.memory.physicalTotalBytes = base + sampled)
    (hsafe : SafeSide sampled command) :
    WithinLimits config base (HostWorld.after .initial before index) command := by
  subst hlabels
  obtain ⟨-, hcommand, -⟩ := lawful_append.mp (hostRun_lawful h).1
  obtain ⟨other, stage, committed, hother, hmay⟩ := hcommand.may
  rw [hconfig] at hother
  cases hother
  exact hmay.withinLimits hguest hcounted hsafe

/-! ## A sample from before a growth -/

/-- The devices follow the labels, and every publication accepted from the VM counts its base and an
allocation its device has had by then. -/
inductive Counted (base index : Nat) : (Nat → Prop) → Devices → List Label → Devices → Prop
  | done {past : Nat → Prop} {D D' : Devices} (h : ∀ index, Drifts (D index) (D' index)) :
      Counted base index past D [] D'
  | label {past : Nat → Prop} {D D₁ D₂ D' : Devices} {label : Label} {labels : List Label}
      (hdrifts : ∀ index, Drifts (D index) (D₁ index))
      (hcounted : ∀ envelope, label = .event ⟨.vm index .readGuest, .ok envelope⟩ →
        ∃ sampled, (past sampled ∨ ∃ d, Drifts (D index) d ∧ Drifts d (D₁ index) ∧
            d.currentBytes = sampled) ∧
          envelope.memory.physicalTotalBytes = base + sampled)
      (hobeys : Obeys D₁ label D₂)
      (h : Counted base index (fun allocation => past allocation ∨ ∃ d, Drifts (D index) d ∧
        Drifts d (D₁ index) ∧ d.currentBytes = allocation) D₂ labels D') :
      Counted base index past D (label :: labels) D'

/-- Once the device has had an allocation, publications may count it whatever else happens. -/
theorem Counted.of_past {past : Nat → Prop} {D D' : Devices} (hfollows : Follows D labels D')
    (hpast : past sampled)
    (hcounted : ∀ envelope, .event ⟨.vm index .readGuest, .ok envelope⟩ ∈ labels →
      envelope.memory.physicalTotalBytes = base + sampled) : Counted base index past D labels D' := by
  induction hfollows generalizing past with
  | done hdrifts => exact .done hdrifts
  | label hdrifts hobeys _ ih =>
      refine .label hdrifts ?_ hobeys (ih (.inl hpast) ?_)
      · rintro envelope rfl
        exact ⟨sampled, .inl hpast, hcounted envelope List.mem_cons_self⟩
      · exact fun envelope hmem => hcounted envelope (List.mem_cons_of_mem _ hmem)

/-! The guest counts its RAM while 2 GiB are plugged. By the time the host looks, 4 GiB are. -/

def exampleAddition : MemoryRequest := exampleRequest .add (2 ^ 32) 100000

def grownScripts : List Script :=
  let script := exampleScript (examplePublication (6 * 2 ^ 30) exampleAddition)
  [script, { script with plugged := [2 ^ 32] }]

def pluggingDevices : Devices := fun _ => exampleDevice (2 ^ 32) (2 ^ 31)

def grown : List Label × HostRuntime × Devices :=
  Script.rounds grownScripts exampleRuntime pluggingDevices

def grownLabels : List Label := [.started] ++ grown.1

theorem grown_run : HostRun none [exampleConfig] grownLabels (some grown.2.1) ∧
    Follows pluggingDevices grown.1 grown.2.2 :=
  Script.playable_run exampleRuntime_run (by decide +kernel)

/-- Every sample of the first VM counts `total` bytes. -/
def counts (total : Nat) : Label → Bool
  | .event ⟨.vm 0 .readGuest, .ok envelope⟩ => envelope.memory.physicalTotalBytes == total
  | _ => true

theorem grown_counted : Counted (2 ^ 32) 0 (fun _ => False) pluggingDevices grownLabels grown.2.2 := by
  refine .label (fun _ => .refl _) (fun _ => nofun) .started (@Counted.of_past 0 _ (2 ^ 32) (2 ^ 31)
    _ _ _ grown_run.2 (.inr ⟨pluggingDevices 0, .refl _, .refl _, rfl⟩) ?_)
  intro envelope hmem
  have htotals : grown.1.all (counts (2 ^ 32 + 2 ^ 31)) = true := by decide +kernel
  simpa [counts] using List.all_eq_true.mp htotals _ hmem

def growCommand : Command :=
  .resize exampleAddition (exampleDevice (2 ^ 32) (2 ^ 32)) (6 * 2 ^ 30) ⟨2 ^ 32, 6 * 2 ^ 30, 0, 0⟩

/-- **A growth since the sample lets an addition past the maximum.** Here the guest ends up with 10 GiB
where 8 GiB are allowed. -/
theorem growth_past_maximum : ¬ ∀ (pool : Option Nat) (configs : List HostConfig) (config : HostConfig)
    (index base : Nat) (process : Option HostRuntime) (labels before after : List Label)
    (command : Command) (answer : VmAns command.op) (D D' : Devices),
    HostRun pool configs labels process → configs[index]? = some config →
    Counted base index (fun _ => False) D labels D' →
    labels = before ++ .event ⟨.vm index command.op, answer⟩ :: after →
    WithinLimits config base (HostWorld.after .initial before index) command := by
  intro hclaim
  obtain ⟨answer, hsplit⟩ := @command_split 0 grownLabels growCommand 19 (by decide +kernel)
  have hlimits := hclaim _ _ exampleConfig 0 _ _ _ _ _ growCommand answer _ _ grown_run.1 rfl
    grown_counted hsplit
  have hmaximum : 2 ^ 32 + 6 * 2 ^ 30 ≤ (exampleConfig.maxRam : Nat) := hlimits
  exact absurd hmaximum (by decide +kernel)

/-- The removal of 1 GiB from 4 GiB, counted while 4 GiB are plugged. -/
theorem removal_within_limits :
    (exampleConfig.minRam : Nat) ≤ 2 ^ 32 + (3 * 2 ^ 30) := by
  obtain ⟨answer, hsplit⟩ := @command_split 0 extendedLabels removeCommand 11 (by decide +kernel)
  have hguest : (HostWorld.after .initial (extendedLabels.take 11) 0).guest =
      some (examplePublication (8 * 2 ^ 30) exampleRemove) := by decide +kernel
  have hsafe : SafeSide (2 ^ 32) removeCommand := le_refl (2 ^ 32)
  have hlimits := @grants_within_limits _ _ exampleConfig 0 _ _ (2 ^ 32) _ _ _ _ removeCommand answer
    extended_run.1 hsplit rfl hguest rfl hsafe
  exact hlimits

end VirtioMem.Host
