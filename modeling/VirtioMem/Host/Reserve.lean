import VirtioMem.Host.Devices

/-!
# The host reserve

Growth is paid for before it is commanded. The second phase of a round begins with what every VM may
still grow by, adds each growth it sends whatever becomes of it, and hands the sum to the check of the
next. Sums saturate, and a VM that was never read counts as the largest value, so a check that passes
says that nothing was saturated and nobody was left out.
-/

namespace VirtioMem.Host

open VirtioMem.Core VirtioMem.Effect VirtioMem.Word

variable {pool : Option Nat} {configs : List HostConfig} {s : HostRuntime} {W : HostWorld}
  {labels : List Label}

/-- The growth an event of a round reserves. -/
def reserved : Event RuntimeAns → Nat
  | ⟨.vm _ (.requestResize _ expected target _), _⟩ => target - expected.currentBytes
  | _ => 0

theorem commit_reserved (W : HostWorld × Nat) (event : Event RuntimeAns) (hW : W.2 ≤ maximum) :
    ((runtimeLaw pool configs).next W event.1 event.2).2 = min (W.2 + reserved event) maximum := by
  obtain ⟨op, answer⟩ := event
  cases op with
  | stopRequested => exact (min_eq_left hW).symm
  | vm index op =>
      cases op with
      | requestResize request expected target authorize => rfl
      | _ => exact (min_eq_left hW).symm

/-- What a round has committed to is what it began with and what it has reserved. -/
theorem committed_after (W : HostWorld × Nat) (events : List (Event RuntimeAns))
    (hW : W.2 ≤ maximum) : ((runtimeLaw pool configs).after W events).2 =
      min (W.2 + (events.map reserved).sum) maximum := by
  induction events generalizing W with
  | nil => simpa using hW
  | cons event events ih =>
      have hnext := @commit_reserved pool configs W event hW
      rw [Monitor.after_cons, ih _ (by rw [hnext]; exact min_le_right _ _), hnext, List.map_cons,
        List.sum_cons]
      omega

/-- A round begins with what every VM may still grow by. -/
theorem committed_eq (h : CoupledAll pool configs s W) :
    s.committed = min (∑ index ∈ Finset.range configs.length,
      (W index).outstanding.getD maximum) maximum := by
  have hterms : s.vms.map (fun vm => vm.outstandingGrowth.getD maximum) =
      (List.range configs.length).map fun index => (W index).outstanding.getD maximum := by
    apply List.ext_getElem
    · simp [h.length]
    · intro index hmap hrange
      have hvm : index < s.vms.length := by simpa using hmap
      obtain ⟨config, -, hcoupled⟩ := h.coupled index _ (List.getElem?_eq_getElem hvm)
      simp [hcoupled.outstanding]
  have hfold : s.committed = (s.vms.map fun vm => vm.outstandingGrowth.getD maximum).foldl
      saturatingAdd 0 := by
    rw [List.foldl_map]
    rfl
  rw [hfold, foldl_saturatingAdd _ (Nat.zero_le _), hterms, sum_map_range, Nat.zero_add]

/-- Below the largest value nothing was saturated, so every VM was read. -/
theorem outstanding_known (h : ∑ index ∈ Finset.range configs.length,
    (W index).outstanding.getD maximum < maximum) :
    (∀ index < configs.length, (W index).live.isSome) ∧
      ∑ index ∈ Finset.range configs.length, (W index).outstanding.getD maximum =
        ∑ index ∈ Finset.range configs.length, (W index).outstanding.getD 0 := by
  have hsome : ∀ index < configs.length, ∃ growth, (W index).outstanding = some growth := by
    intro index hindex
    have hle := Finset.single_le_sum (f := fun index => (W index).outstanding.getD maximum)
      (fun _ _ => Nat.zero_le _) (Finset.mem_range.mpr hindex)
    cases houtstanding : (W index).outstanding with
    | some growth => exact ⟨growth, rfl⟩
    | none =>
        simp only [houtstanding, Option.getD_none] at hle
        omega
  constructor
  · intro index hindex
    obtain ⟨growth, hgrowth⟩ := hsome index hindex
    obtain ⟨live, hlive, -⟩ := Option.map_eq_some_iff.mp hgrowth
    rw [hlive]
    rfl
  · refine Finset.sum_congr rfl fun index hindex => ?_
    obtain ⟨growth, hgrowth⟩ := hsome index (Finset.mem_range.mp hindex)
    rw [hgrowth]
    rfl

/-- What a passed check says about a growth. -/
theorem Authorization.check_ok {authorize : Authorization} {available : U64}
    (h : authorize.check (.ok available) = .ok ())
    (hgrowth : authorize.currentBytes < authorize.targetBytes) :
    authorize.minimumHeadroomBytes + authorize.previouslyCommitted +
      (authorize.targetBytes - authorize.currentBytes) ≤ available := by
  simp only [Authorization.check, validateGrowHeadroom, not_le.mpr hgrowth, if_false] at h
  split_ifs at h with hshort
  omega

/-- The two phases of a round, one after the other, and what an observer knows between them. -/
theorem phases_accepted {first second : List (Event RuntimeAns)} {observed : List Observed}
    {lastStop : Option HostRuntimeError} {s₁ : HostRuntime}
    {result : Option (Except HostRuntimeError Step × HostRuntime)}
    (h : CoupledAll pool configs s W)
    (hobserve : (HostRuntime.observeAll s).Runs first (some (.ok (some (observed, lastStop)), s₁)))
    (hact : (HostRuntime.actAll observed lastStop s₁).Runs second result) :
    ObservedAll pool configs observed s₁ ((hostLaw pool configs).after W first) ∧
      (runtimeLaw pool configs).Accepts ((hostLaw pool configs).after W first, s₁.committed)
        second := by
  have hobserved := (@Safe.forget _ pool configs W 0 _ _ (@ensuresAll_observeAll pool configs s W 0
    (fun value s W => ∀ observed lastStop, value = some (observed, lastStop) →
      ObservedAll pool configs observed s W.1) h nofun
    (by rintro observed lastStop s W h _ _ ⟨⟩; exact h))).accepts hobserve
  obtain ⟨committed, hall⟩ := hobserved.2 _ rfl
  have hall := hall observed lastStop rfl
  have hacted := @ensuresAll_actAll pool configs s₁ _ (fun _ _ _ => True) observed lastStop hall
    fun _ _ _ _ _ => trivial
  exact ⟨hall, (hacted.accepts hact).1⟩

/-- **Growth never eats the host reserve.** Whatever reading authorises a growth covers the VM's
headroom, all growth outstanding when the second phase began, all growth reserved before in this round,
and this growth; and every VM has been read since the process started. -/
theorem growth_leaves_reserve {first before after : List (Event RuntimeAns)}
    {observed : List Observed} {lastStop : Option HostRuntimeError} {s₁ : HostRuntime}
    {result : Option (Except HostRuntimeError Step × HostRuntime)} {index target : Nat}
    {request : MemoryRequest} {expected : VirtioMemState} {authorize : Authorization}
    {answer : VmAns (.requestResize request expected target authorize)} {available : U64}
    (hrun : HostRun pool configs labels (some s))
    (hobserve : (HostRuntime.observeAll s).Runs first (some (.ok (some (observed, lastStop)), s₁)))
    (hact : (HostRuntime.actAll observed lastStop s₁).Runs (before ++
      ⟨.vm index (.requestResize request expected target authorize), answer⟩ :: after) result)
    (hgrowth : expected.currentBytes < target)
    (hauthorized : authorize.check (.ok available) = .ok ()) :
    let W := HostWorld.after .initial (labels ++ .round :: first.map .event)
    (∀ other < configs.length, (W other).live.isSome) ∧ ∃ config, configs[index]? = some config ∧
      config.hostMinHeadroomBytes +
        ∑ other ∈ Finset.range configs.length, (W other).outstanding.getD 0 +
        (before.map reserved).sum + (target - expected.currentBytes) ≤ available := by
  intro W
  have hcoupled := ((hostRun_lawful hrun).2 s rfl).stale
  obtain ⟨hall, haccepts⟩ := phases_accepted hcoupled hobserve hact
  have hW : (hostLaw pool configs).after (HostWorld.step (HostWorld.after .initial labels) .round)
      first = W := by
    show _ = HostWorld.after .initial (labels ++ .round :: first.map .event)
    rw [HostWorld.after_append, ← HostWorld.after_events pool configs]
    rfl
  rw [hW] at hall haccepts
  have hcommitted := committed_eq hall.coupled
  have hlimit : s₁.committed ≤ maximum := by
    rw [hcommitted]
    exact min_le_right _ _
  obtain ⟨-, ⟨⟨config, stage, hconfig, hmay⟩, -⟩, -⟩ := ((runtimeLaw pool configs).accepts_append _ _ _).mp
    haccepts
  obtain ⟨-, -, -, -, -, -, -, -, rfl, -⟩ := hmay
  have hreserve := Authorization.check_ok hauthorized hgrowth
  dsimp only at hreserve
  rw [committed_after _ before hlimit, hcommitted] at hreserve
  have hmaximum := U64.le_maximum available
  -- The check would have failed on an outstanding growth that is not known.
  have hbelow : ∑ other ∈ Finset.range configs.length, (W other).outstanding.getD maximum <
      maximum := by omega
  obtain ⟨hread, hsum⟩ := outstanding_known hbelow
  rw [hsum] at hreserve hbelow
  refine ⟨hread, config, hconfig, ?_⟩
  omega

/-! ## The second growth of a round

Two VMs ask for 1 GiB, a third has 1 GiB still to plug, and the host has just enough left. -/

def secondConfig : HostConfig :=
  { exampleConfig with vmName := "second", hostMinHeadroomBytes := 2 ^ 31 }

def pluggingConfig : HostConfig := { exampleConfig with vmName := "plugging" }

def crowdedConfigs : List HostConfig := [exampleConfig, secondConfig, pluggingConfig]

def crowdedRuntime : HostRuntime where
  vms := [.new exampleConfig 1 (⟨"guest", "memory0", "", none⟩, .fresh),
    .new secondConfig 1 (⟨"second", "memory0", "", none⟩, .fresh),
    .new pluggingConfig 1 (⟨"plugging", "memory0", "", none⟩, .fresh)]
  poolBytes := none

theorem crowdedRuntime_run : HostRun none crowdedConfigs [.started] (some crowdedRuntime) :=
  .start (fun _ => "") 1 (by decide) .fresh rfl

def secondAdd : MemoryRequest :=
  { exampleAdd with identity := ⟨"second", "service", "session", 100000⟩ }

def crowdedScript : Script :=
  { exampleScript (examplePublication (6 * 2 ^ 30) exampleAdd) with
    guest := fun index => match index with
      | 0 => some (examplePublication (6 * 2 ^ 30) exampleAdd)
      | 1 => some { examplePublication (6 * 2 ^ 30) secondAdd with vmName := "second" }
      | _ => none
    availableBytes := ⟨5 * 2 ^ 30 + growAdmissionMarginBytes, by decide⟩ }

def crowdedDevices : Devices := fun index =>
  if index = 2 then exampleDevice (2 ^ 32) (3 * 2 ^ 30) else exampleDevice (2 ^ 31) (2 ^ 31)

def crowdedObserving : List (Event RuntimeAns) × (Except HostRuntimeError
    (Option (List Observed × Option HostRuntimeError)) × HostRuntime) × Devices :=
  (HostRuntime.observeAll crowdedRuntime).simulate crowdedScript.env crowdedDevices

def crowdedObserved : List Observed :=
  [.ready ⟨2 ^ 32, exampleDevice (2 ^ 31) (2 ^ 31), exampleAdd, .new⟩,
    .ready ⟨2 ^ 32, exampleDevice (2 ^ 31) (2 ^ 31), secondAdd, .new⟩,
    .held (some (2 ^ 32, 2 ^ 21))]

def crowdedActing : List (Event RuntimeAns) × (Except HostRuntimeError Step × HostRuntime) × Devices :=
  (HostRuntime.actAll crowdedObserved none crowdedObserving.2.1.2).simulate crowdedScript.env
    crowdedObserving.2.2

/-- What the second growth has to leave: its headroom, what the third VM still plugs, and the first
growth. -/
def secondAuthorization : Authorization := ⟨2 ^ 31, 3 * 2 ^ 30, 2 ^ 30 + 2 ^ 30, 2 ^ 31⟩

theorem secondGrowth_leaves_reserve :
    let W := HostWorld.after .initial ([.started] ++ .round :: crowdedObserving.1.map .event)
    ((crowdedActing.1.take 15).map reserved).sum = 2 ^ 30 ∧
      (∀ other < 3, (W other).live.isSome) ∧ ∃ config, crowdedConfigs[1]? = some config ∧
      config.hostMinHeadroomBytes +
        ∑ other ∈ Finset.range 3, (W other).outstanding.getD 0 +
        ((crowdedActing.1.take 15).map reserved).sum + (3 * 2 ^ 30 - 2 ^ 31) ≤
        (crowdedScript.availableBytes : Nat) := by
  refine ⟨by decide +kernel, ?_⟩
  have hobserve := Prog.simulate_runs crowdedScript.env (HostRuntime.observeAll crowdedRuntime)
    crowdedDevices
  have hact := Prog.simulate_runs crowdedScript.env
    (HostRuntime.actAll crowdedObserved none crowdedObserving.2.1.2) crowdedObserving.2.2
  have hobserved : crowdedObserving.2.1 =
      (.ok (some (crowdedObserved, none)), crowdedObserving.2.1.2) :=
    Prod.ext (by decide +kernel) rfl
  -- the command before this one is the first VM's
  obtain ⟨event, hcommand, hsplit⟩ := @split_at _ _ (fun event => commandOf event.1)
    crowdedActing.1 (1, .resize secondAdd (exampleDevice (2 ^ 31) (2 ^ 31)) (3 * 2 ^ 30)
      secondAuthorization) 15 (by decide +kernel)
  obtain ⟨op, answer⟩ := event
  cases commandOf_eq_some hcommand
  change Prog.Runs _ crowdedObserving.1 (some crowdedObserving.2.1) at hobserve
  change Prog.Runs _ crowdedActing.1 _ at hact
  rw [hobserved] at hobserve
  rw [hsplit] at hact
  have hauthorized : secondAuthorization.check (.ok crowdedScript.availableBytes) = .ok () := by
    decide +kernel
  exact growth_leaves_reserve crowdedRuntime_run hobserve hact (by decide) hauthorized

end VirtioMem.Host
