import VirtioMem.Host.Acting

/-!
# A round keeps the protocol

The protocol of all VMs together. Each VM keeps its own, and over them stands the pool: a write that
raises a VM's charge may be made only if every VM's charge is known and they all fit
(`Affordable`).

`observeAll` and `actAll` are taken apart into what they do to one VM after the other. The first ends
with every VM charged what it reported, so that the allocation in between is an allocation of the
charges an observer knows; the second never passes a ceiling.
-/

namespace VirtioMem.Host

open VirtioMem.Core VirtioMem.Effect VirtioMem.Word

/-- What an observer knows of every VM. -/
abbrev HostWorld : Type := Nat → VmWorld

/-- The charges of all VMs that are known. -/
def charged (n : Nat) (W : HostWorld) : Nat := ∑ i ∈ Finset.range n, (W i).charge.getD 0

/-- A write that starts something beyond the VM's charge needs all charges known, and room for it. -/
def Affordable (pool : Option Nat) (n : Nat) (W : HostWorld) (index : Nat) : VmOp → Prop
  | .persist file => ∀ poolBytes, pool = some poolBytes → (W index).control.intent = none →
      (W index).charge.getD 0 < file.control.intentTarget →
        (∀ i < n, (W i).charge.isSome) ∧
          charged n (Function.update W index ((W index).store file)) ≤ poolBytes
  | _ => True

/-- The protocol of the runtime, with the growth committed to so far. -/
def runtimeLaw (pool : Option Nat) (configs : List HostConfig) :
    Monitor (HostWorld × Nat) RuntimeOp RuntimeAns where
  may W
    | .stopRequested => True
    | .vm index op => (∃ config stage, configs[index]? = some config ∧
        (W.1 index).May config stage W.2 op) ∧ Affordable pool configs.length W.1 index op
  next W
    | .stopRequested, _ => W
    | .vm index op, answer =>
      (Function.update W.1 index ((W.1 index).next op answer), commit W.2 op)

/-- What an answered operation tells the observer. -/
def HostWorld.next (W : HostWorld) : (op : RuntimeOp) → RuntimeAns op → HostWorld
  | .stopRequested, _ => W
  | .vm index op, answer => Function.update W index ((W index).next op answer)

/-- The same without the commitment. -/
def hostLaw (pool : Option Nat) (configs : List HostConfig) :
    Monitor HostWorld RuntimeOp RuntimeAns where
  may W op := ∃ committed, (runtimeLaw pool configs).may (W, committed) op
  next := HostWorld.next

variable {α : Type} {pool : Option Nat} {configs : List HostConfig} {config : HostConfig}
  {s : HostRuntime} {W : HostWorld} {committed : Nat}

theorem next_fst (W : HostWorld × Nat) (op : RuntimeOp) (answer : RuntimeAns op) :
    ((runtimeLaw pool configs).next W op answer).1 = (hostLaw pool configs).next W.1 op answer := by
  cases op <;> rfl

/-- What is safe with a commitment is safe without. -/
theorem Safe.forget {p : Prog RuntimeOp RuntimeAns α} {Q : α → HostWorld × Nat → Prop}
    (h : p.Safe (runtimeLaw pool configs) Q (W, committed)) :
    p.Safe (hostLaw pool configs) (fun value W => ∃ committed, Q value (W, committed)) W := by
  refine (h.transport (fun W W' => W.1 = W') ?_ ?_ rfl).mono ?_
  · rintro ⟨W, committed⟩ _ op rfl hmay
    exact ⟨committed, hmay⟩
  · rintro W _ op answer rfl hmay
    exact next_fst W op answer
  · rintro value _ ⟨⟨W, committed⟩, rfl, hQ⟩
    exact ⟨committed, hQ⟩

/-- The action keeps the protocol of the runtime and returns in `Q`. -/
abbrev EnsuresAll (pool : Option Nat) (configs : List HostConfig) (action : RuntimeAction α)
    (Q : α → HostRuntime → HostWorld × Nat → Prop) (s : HostRuntime) (W : HostWorld × Nat) : Prop :=
  Action.wp (runtimeLaw pool configs) action Q (fun _ _ _ => True) s W

/-- Every controller agrees with what an observer knows of its VM. -/
structure CoupledAll (pool : Option Nat) (configs : List HostConfig) (s : HostRuntime)
    (W : HostWorld) : Prop where
  poolBytes : s.poolBytes = pool
  length : s.vms.length = configs.length
  coupled : ∀ index vm, s.vms[index]? = some vm →
    ∃ config, configs[index]? = some config ∧ Coupled config vm (W index)

/-- Replacing one VM by another that agrees. -/
theorem CoupledAll.set (h : CoupledAll pool configs s W) {index : Nat} {vm' : VmController}
    {w' : VmWorld} (hconfig : configs[index]? = some config) (hcoupled : Coupled config vm' w') :
    CoupledAll pool configs { s with vms := s.vms.set index vm' } (Function.update W index w') where
  poolBytes := h.poolBytes
  length := (List.length_set ..).trans h.length
  coupled := by
    intro other vm hvm
    by_cases hother : other = index
    · subst hother
      have hlt : other < s.vms.length := by
        rw [h.length]
        exact (List.getElem?_eq_some_iff.mp hconfig).1
      rw [List.getElem?_set_self hlt] at hvm
      cases hvm
      exact ⟨config, hconfig, by rw [Function.update_self]; exact hcoupled⟩
    · rw [List.getElem?_set_ne (Ne.symm hother)] at hvm
      rw [Function.update_of_ne hother]
      exact h.coupled other vm hvm

/-! ## One VM of the runtime -/

theorem ensuresAll_bind {β : Type} {action : RuntimeAction α} {next : α → RuntimeAction β}
    {Q : β → HostRuntime → HostWorld × Nat → Prop} {W : HostWorld × Nat}
    (h : EnsuresAll pool configs action
      (fun value s W => EnsuresAll pool configs (next value) Q s W) s W) :
    EnsuresAll pool configs (action >>= next) Q s W :=
  (Action.wp_bind action next).mpr h

theorem ensuresAll_stop {Q : Bool → HostRuntime → HostWorld × Nat → Prop} {W : HostWorld × Nat}
    (h : ∀ stopped, Q stopped s W) :
    EnsuresAll pool configs (Action.perform .stopRequested) Q s W :=
  ⟨trivial, h⟩

/-- **One VM's action within the runtime.** The rest of the world stands still; `R` is what the steps
of this VM keep, and it must let no write through that the pool cannot afford. -/
theorem ensuresAll_onVm {stage : Stage} {action : VmAction α} {index : Nat} {vm : VmController}
    {P : α → VmController → VmWorld × Nat → Prop} {Q : α → HostRuntime → HostWorld × Nat → Prop}
    (R : VmWorld → Prop) (hvm : s.vms[index]? = some vm) (hconfig : configs[index]? = some config)
    (hafford : ∀ w committed op, R w → w.May config stage committed op →
      Affordable pool configs.length (Function.update W index w) index op)
    (hnext : ∀ w committed op answer, R w → w.May config stage committed op → R (w.next op answer))
    (hR : R (W index)) (h : Ensures config stage action P vm (W index, committed))
    (hQ : ∀ value vm' w' committed', R w' → P value vm' (w', committed') →
      Q value { s with vms := s.vms.set index vm' } (Function.update W index w', committed')) :
    EnsuresAll pool configs (HostRuntime.onVm index action) Q s (W, committed) := by
  unfold EnsuresAll Action.wp HostRuntime.onVm
  rw [hvm]
  refine Prog.safe_bind.mpr ?_
  have hembed := @Prog.Safe.embed VmOp RuntimeOp VmAns RuntimeAns _ _ _ (vmLaw config stage)
    (.vm index) (fun _ answer => answer) (runtimeLaw pool configs) (action vm) _
    (fun w W' => R w.1 ∧ W' = (Function.update W index w.1, w.2)) ?_ ?_ (W index, committed)
    (W, committed) h ⟨hR, by rw [Function.update_eq_self]⟩
  · refine hembed.mono ?_
    rintro ⟨_ | value, vm'⟩ _ ⟨⟨w', committed'⟩, ⟨hR', rfl⟩, hP⟩
    · trivial
    · exact hQ value vm' w' committed' hR' hP
  -- What this VM may do, the runtime may do for it, if the pool can afford it.
  · rintro ⟨w, committed⟩ _ op ⟨hR, rfl⟩ hmay
    refine ⟨⟨config, stage, hconfig, ?_⟩, hafford w committed op hR hmay⟩
    show (Function.update W index w index).May config stage committed op
    rw [Function.update_self]
    exact hmay
  · rintro ⟨w, committed⟩ _ op answer ⟨hR, rfl⟩ hmay
    refine ⟨hnext w committed op answer hR hmay, ?_⟩
    show (Function.update (Function.update W index w) index
      ((Function.update W index w index).next op answer), commit committed op) =
        (Function.update W index (w.next op answer), commit committed op)
    rw [Function.update_self, Function.update_idem]

/-- Observing a VM starts nothing, so the pool does not matter. -/
theorem observing_affordable {index : Nat} {w : VmWorld} {op : VmOp}
    (hmay : w.May config .observing committed op) :
    Affordable pool configs.length (Function.update W index w) index op := by
  cases op with
  | persist file =>
      intro poolBytes _ hidle hlt
      rw [Function.update_self] at hidle hlt
      simp [DurableControlState.intentTarget, Writes.idle hmay hidle] at hlt
  | _ => trivial

/-- What an observed VM reported, against its controller and the world. -/
def Observes (configs : List HostConfig) (s : HostRuntime) (W : HostWorld) (index : Nat)
    (seen : Observed) : Prop :=
  ∃ vm config, s.vms[index]? = some vm ∧ configs[index]? = some config ∧
    Reported config seen vm (W index) ∧ ∀ error, seen ≠ .stop error

theorem ensuresAll_observed {index : Nat}
    {Q : Observed × Option HostRuntimeError → HostRuntime → HostWorld × Nat → Prop}
    (h : CoupledAll pool configs s W) (hindex : index < configs.length)
    (hQ : ∀ seen stopped vm' w', CoupledAll pool configs { s with vms := s.vms.set index vm' }
        (Function.update W index w') →
      Observes configs { s with vms := s.vms.set index vm' } (Function.update W index w') index
        seen →
      Q (seen, stopped) { s with vms := s.vms.set index vm' }
        (Function.update W index w', committed)) :
    EnsuresAll pool configs (HostRuntime.onVm index VmController.observed) Q s (W, committed) := by
  have hlt : index < s.vms.length := h.length ▸ hindex
  have hvm := List.getElem?_eq_getElem hlt
  obtain ⟨config, hconfig, hcoupled⟩ := h.coupled index _ hvm
  refine ensuresAll_onVm (fun _ => True) hvm hconfig
    (fun w committed op _ hmay => observing_affordable hmay) (fun _ _ _ _ _ _ => trivial) trivial
    (ensures_observed (Q := fun value vm' w' => w'.2 = committed ∧ Reported config value.1 vm' w'.1 ∧
      ∀ error, value.1 ≠ .stop error) hcoupled fun seen stopped vm' w' hreported hnever =>
        ⟨rfl, hreported, hnever⟩) ?_
  rintro ⟨seen, stopped⟩ vm' w' committed' - ⟨rfl, hreported, hnever⟩
  refine hQ seen stopped vm' w' (h.set hconfig hreported.toCoupled) ?_
  refine ⟨vm', config, ?_, hconfig, ?_, hnever⟩
  · show (s.vms.set index vm')[index]? = some vm'
    rw [List.getElem?_set_self hlt]
  · rw [Function.update_self]
    exact hreported

/-- An observation of one VM stands while another is looked at. -/
theorem Observes.other {index other : Nat} {seen : Observed} {vm' : VmController} {w' : VmWorld}
    (h : Observes configs s W other seen) (hne : other ≠ index) :
    Observes configs { s with vms := s.vms.set index vm' } (Function.update W index w') other
      seen := by
  obtain ⟨vm, config, hvm, hconfig, hreported, hnever⟩ := h
  refine ⟨vm, config, ?_, hconfig, ?_, hnever⟩
  · show (s.vms.set index vm')[other]? = some vm
    rw [List.getElem?_set_ne (Ne.symm hne)]
    exact hvm
  · rw [Function.update_of_ne hne]
    exact hreported

/-- Every VM was observed as listed. -/
structure ObservedAll (pool : Option Nat) (configs : List HostConfig) (observed : List Observed)
    (s : HostRuntime) (W : HostWorld) : Prop where
  coupled : CoupledAll pool configs s W
  length : observed.length = configs.length
  seen : ∀ index seen, observed[index]? = some seen → Observes configs s W index seen

/-- Looking at the VMs from `observed.length` on completes the list. -/
theorem ensuresAll_observeFrom
    {Q : Option (List Observed × Option HostRuntimeError) → HostRuntime → HostWorld × Nat → Prop}
    (hnone : ∀ s W, CoupledAll pool configs s W → Q none s (W, committed))
    (hsome : ∀ observed lastStop s W, ObservedAll pool configs observed s W →
      Q (some (observed, lastStop)) s (W, committed)) (count : Nat) :
    ∀ (observed : List Observed) (lastStop : Option HostRuntimeError) (s : HostRuntime)
      (W : HostWorld), CoupledAll pool configs s W → observed.length + count = configs.length →
      (∀ index seen, observed[index]? = some seen → Observes configs s W index seen) →
      EnsuresAll pool configs
        (HostRuntime.observeFrom observed lastStop (List.range' observed.length count)) Q s
        (W, committed) := by
  induction count with
  | zero =>
      intro observed lastStop s W h hlength hseen
      exact hsome observed lastStop s W ⟨h, hlength, hseen⟩
  | succ count ih =>
      intro observed lastStop s W h hlength hseen
      rw [List.range'_succ]
      apply ensuresAll_bind
      refine ensuresAll_stop fun stopped => ?_
      split
      · exact hnone s W h
      apply ensuresAll_bind
      refine ensuresAll_observed h (by omega) fun seen stopped vm' w' h' hobserves => ?_
      have hnext := ih (observed ++ [seen]) (stopped.or lastStop) _ _ h'
        (by rw [List.length_append, List.length_singleton]; omega) ?_
      · rw [List.length_append, List.length_singleton] at hnext
        exact hnext
      intro index other hother
      -- One seen before, the one just seen, or none.
      rcases Nat.lt_trichotomy index observed.length with hlt | rfl | hgt
      · rw [List.getElem?_append_left hlt] at hother
        exact (hseen index other hother).other hlt.ne
      · rw [List.getElem?_concat_length] at hother
        cases hother
        exact hobserves
      · rw [List.getElem?_eq_none (by rw [List.length_append, List.length_singleton]; omega)]
          at hother
        cases hother

/-- **The first phase of a round keeps the protocol**, and ends with every VM observed. -/
theorem ensuresAll_observeAll
    {Q : Option (List Observed × Option HostRuntimeError) → HostRuntime → HostWorld × Nat → Prop}
    (h : CoupledAll pool configs s W)
    (hnone : ∀ s W, CoupledAll pool configs s W → Q none s (W, committed))
    (hsome : ∀ observed lastStop s W, ObservedAll pool configs observed s W →
      Q (some (observed, lastStop)) s (W, committed)) :
    EnsuresAll pool configs HostRuntime.observeAll Q s (W, committed) := by
  show EnsuresAll pool configs (HostRuntime.observeFrom [] none (List.range s.vms.length)) Q s
    (W, committed)
  rw [List.range_eq_range']
  exact ensuresAll_observeFrom hnone hsome _ [] none s W h (by simp [h.length]) nofun

/-! ## The budget of a round -/

/-- What the VMs are charged when the pool is allocated; one never read is charged all of it. -/
def baseCharge (pool : Option Nat) (W : HostWorld) (index : Nat) : Nat :=
  (W index).charge.getD (pool.getD 0)

/-- No ceiling is below the charge `base`, and some are above only within the pool. -/
structure Budget (pool : Option Nat) (n : Nat) (base : Nat → Nat)
    (ceilings : Option (List PoolAllocation)) : Prop where
  le : ∀ allocations, ceilings = some allocations →
    ∀ index < n, base index ≤ ceilingOf allocations index
  fit : ∀ poolBytes, pool = some poolBytes → ∃ allocations, ceilings = some allocations ∧
    ((∃ index < n, base index < ceilingOf allocations index) →
      ∑ index ∈ Finset.range n, base index < poolBytes ∧
      ∑ index ∈ Finset.range n, ceilingOf allocations index ≤ poolBytes)

/-- The pool is told what the observer knows. -/
theorem poolMember_charged {index : Nat} {seen : Observed} {poolBytes : Nat} {vm : VmController}
    (hreported : Reported config seen vm (W index)) (hnever : ∀ error, seen ≠ .stop error) :
    (vm.poolMember seen poolBytes).chargedBytes = (W index).charge.getD poolBytes := by
  cases seen with
  | stop error => exact absurd rfl (hnever error)
  | ready ready =>
      rw [hreported.charged, (hreported.ready ready rfl).remembered]
      rfl
  | held charge =>
      rw [hreported.charged, ← hreported.remembered, hreported.held charge rfl]
      cases vm.lastCharge <;> rfl

/-- **What is allocated is a budget** over what the VMs are charged. -/
theorem allocate_budget {observed : List Observed} {ceilings : Option (List PoolAllocation)}
    (h : ObservedAll pool configs observed s W) (hok : s.allocate observed = .ok ceilings) :
    Budget pool configs.length (baseCharge pool W) ceilings := by
  unfold HostRuntime.allocate at hok
  rw [h.coupled.poolBytes] at hok
  cases pool with
  | none =>
      cases hok
      exact ⟨nofun, nofun⟩
  | some poolBytes =>
  dsimp only at hok
  have hlength : (List.zipWith (fun vm seen => vm.poolMember seen poolBytes) s.vms
      observed).length = configs.length := by
    rw [List.length_zipWith, h.coupled.length, h.length, min_self]
  have hcharge : ∀ index < configs.length, chargeOf (List.zipWith
      (fun vm seen => vm.poolMember seen poolBytes) s.vms observed) index =
        baseCharge (some poolBytes) W index := by
    intro index hindex
    have hseen := List.getElem?_eq_getElem (h.length.symm ▸ hindex : index < observed.length)
    obtain ⟨vm, config, hvm, -, hreported, hnever⟩ := h.seen index _ hseen
    rw [baseCharge, Option.getD_some, ← poolMember_charged hreported hnever]
    simp only [chargeOf, List.getElem?_zipWith, hvm, hseen, Option.map_some, Option.getD_some]
  split at hok
  · cases hok
  next allocations hallocate =>
  cases hok
  obtain ⟨hle, hfit⟩ := allocatePool_sound hallocate
  rw [hlength] at hle hfit
  constructor
  · rintro _ ⟨⟩ index hindex
    rw [← hcharge index hindex]
    exact hle index hindex
  -- Some ceiling is above its charge, so the pool was not overdrawn to begin with.
  · rintro _ ⟨⟩
    refine ⟨allocations, rfl, ?_⟩
    rintro ⟨index, hindex, hlt⟩
    rw [← hcharge index hindex] at hlt
    have hsums := hfit ⟨index, hindex, hlt⟩
    rw [Finset.sum_congr rfl fun other hother => hcharge other (Finset.mem_range.mp hother)] at hsums
    exact hsums

/-- The VM is still charged within what the pool gave it. -/
def Within (pool : Option Nat) (base : Nat → Nat) (ceilings : Option (List PoolAllocation))
    (index : Nat) (w : VmWorld) : Prop :=
  ∀ poolBytes allocations, pool = some poolBytes → ceilings = some allocations →
    match w.charge with
    | none => base index = poolBytes
    | some charge => base index ≤ charge ∧ charge ≤ ceilingOf allocations index

/-- Who is charged within a budget and above its base can be afforded, and everybody else with it. -/
theorem Within.affordable {base : Nat → Nat} {ceilings : Option (List PoolAllocation)} {n : Nat}
    {poolBytes : Nat} (hbudget : Budget pool n base ceilings) (hpool : pool = some poolBytes)
    (hwithin : ∀ index < n, Within pool base ceilings index (W index)) {index : Nat}
    (hindex : index < n) (habove : base index < (W index).charge.getD 0) :
    (∀ index < n, (W index).charge.isSome) ∧ charged n W ≤ poolBytes := by
  obtain ⟨allocations, hceilings, hfit⟩ := hbudget.fit poolBytes hpool
  obtain ⟨hbase, hceiling⟩ : ∑ index ∈ Finset.range n, base index < poolBytes ∧
      ∑ index ∈ Finset.range n, ceilingOf allocations index ≤ poolBytes := by
    apply hfit
    refine ⟨index, hindex, ?_⟩
    have hle := hwithin index hindex poolBytes allocations hpool hceilings
    cases hcharge : (W index).charge with
    | none =>
        rw [hcharge] at habove
        simp at habove
    | some charge =>
        rw [hcharge] at hle habove
        exact lt_of_lt_of_le habove hle.2
  have hknown : ∀ other < n, ∃ charge, (W other).charge = some charge ∧
      charge ≤ ceilingOf allocations other := by
    intro other hother
    have hle := hwithin other hother poolBytes allocations hpool hceilings
    cases hcharge : (W other).charge with
    | none =>
        -- A VM that was never read takes the whole pool, so nobody else grows.
        rw [hcharge] at hle
        have hsingle := Finset.single_le_sum (f := base) (fun _ _ => Nat.zero_le _)
          (Finset.mem_range.mpr hother)
        simp only at hle
        omega
    | some charge =>
        rw [hcharge] at hle
        exact ⟨charge, rfl, hle.2⟩
  constructor
  · intro other hother
    obtain ⟨charge, hcharge, -⟩ := hknown other hother
    rw [hcharge]
    rfl
  · refine le_trans (Finset.sum_le_sum fun other hother => ?_) hceiling
    obtain ⟨charge, hcharge, hle⟩ := hknown other (Finset.mem_range.mp hother)
    rw [hcharge]
    exact hle

/-! ## Acting on one VM -/

/-- What the second phase may write for a VM without an intent: nothing to charge, a removal, or an
addition below the ceiling. -/
theorem Writes.acting_target {ceiling : Option Nat} {w : VmWorld} {control : DurableControlState}
    (h : Writes config (.acting ceiling) w control) (hidle : w.control.intent = none) :
    control.intentTarget = 0 ∨ ∃ live, w.live = some live ∧
      (control.intentTarget < live.currentBytes ∨
        ∀ limit, ceiling = some limit → control.intentTarget ≤ limit) := by
  cases h with
  | resolve hstage => cases hstage
  | latch => exact .inl (by simp [DurableControlState.intentTarget, hidle])
  | @begin ceiling live envelope request intent now tolerance hstage hphase hlive _ _ _ _ _ _ _ _ _
      hgranted =>
      cases hstage
      refine .inr ⟨live, hlive, ?_⟩
      cases hoperation : request.operation with
      | add => exact .inr (hgranted.add hoperation).2.2.2.2
      | remove => exact .inl (hgranted.remove hoperation).1
  | release => exact .inl rfl
  | unexecuted => exact .inl (by simp [DurableControlState.intentTarget, hidle])
  | extend hstage => cases hstage
  | restore hstage => cases hstage
  | settle hstage => cases hstage

/-- The VM is being served: it was read at its base at most, and its charge is known, not below that
base and not above the ceiling. -/
structure Serving (base : Nat → Nat) (ceilings : Option (List PoolAllocation)) (index : Nat)
    (w : VmWorld) : Prop where
  charge : ∃ charge, w.charge = some charge ∧ base index ≤ charge ∧
    ∀ allocations, ceilings = some allocations → charge ≤ ceilingOf allocations index
  live : ∀ live, w.live = some live → live.currentBytes ≤ base index

variable {base : Nat → Nat} {ceilings : Option (List PoolAllocation)} {index : Nat} {w : VmWorld}

theorem Serving.within (h : Serving base ceilings index w) :
    Within pool base ceilings index w := by
  intro poolBytes allocations _ hceilings
  obtain ⟨charge, hcharge, hbase, hceiling⟩ := h.charge
  rw [hcharge]
  exact ⟨hbase, hceiling allocations hceilings⟩

theorem Serving.of_charge (h : Serving base ceilings index w) {w' : VmWorld}
    (hcharge : w'.charge = w.charge) (hlive : w'.live = w.live) : Serving base ceilings index w' :=
  ⟨hcharge ▸ h.charge, hlive ▸ h.live⟩

/-- A write keeps the VM below its ceiling. -/
theorem Serving.store (h : Serving base ceilings index w)
    (hle : ∀ allocations, ceilings = some allocations → base index ≤ ceilingOf allocations index)
    {file : CheckpointFile}
    (hwrites : Writes config (.acting (ceilings.map (ceilingOf · index))) w file.control) :
    Serving base ceilings index (w.store file) := by
  -- Where an intent is on disk already, a write charges nothing new.
  by_cases hidle : w.control.intent = none
  swap
  · exact h.of_charge (by simp [VmWorld.store, hidle]) rfl
  obtain ⟨charge, hcharge, hbase, hceiling⟩ := h.charge
  refine ⟨⟨max charge file.control.intentTarget, ?_, le_max_of_le_left hbase, ?_⟩, h.live⟩
  · simp [VmWorld.store, hidle, hcharge]
  intro allocations hallocations
  apply max_le (hceiling allocations hallocations)
  rcases hwrites.acting_target hidle with hzero | ⟨live, hlive, hlt | hlimit⟩
  · rw [hzero]
    exact Nat.zero_le _
  · exact (hlt.le.trans (h.live live hlive)).trans (hle allocations hallocations)
  · exact hlimit _ (by rw [hallocations]; rfl)

theorem Serving.next (h : Serving base ceilings index w)
    (hle : ∀ allocations, ceilings = some allocations → base index ≤ ceilingOf allocations index)
    {op : VmOp} {answer : VmAns op}
    (hmay : w.May config (.acting (ceilings.map (ceilingOf · index))) committed op) :
    Serving base ceilings index (w.next op answer) := by
  cases op with
  | memoryState => cases hmay.1
  | persist file =>
      have hstore := h.store hle hmay
      cases answer with
      | written => exact hstore.of_charge rfl rfl
      | failed error written =>
          cases written with
          | true => exact hstore.of_charge rfl rfl
          | false => exact h.of_charge rfl rfl
  | widenUsableRegion expected =>
      show Serving base ceilings index (w.widen answer)
      unfold VmWorld.widen
      split
      · exact h.of_charge rfl rfl
      · exact h
  | readGuest => exact h.of_charge rfl rfl
  | requestResize request expected target authorize => exact h.of_charge rfl rfl
  | retargetPending expected target => exact h.of_charge rfl rfl
  | _ => exact h

/-- **What is written while a VM is served can be afforded.** -/
theorem Serving.affordable (h : Serving base ceilings index w)
    (hbudget : Budget pool configs.length base ceilings) (hindex : index < configs.length)
    (hwithin : ∀ other < configs.length, other ≠ index → Within pool base ceilings other (W other))
    {op : VmOp} (hmay : w.May config (.acting (ceilings.map (ceilingOf · index))) committed op) :
    Affordable pool configs.length (Function.update W index w) index op := by
  cases op with
  | persist file =>
      intro poolBytes hpool hidle hlt
      rw [Function.update_self] at hidle hlt ⊢
      rw [Function.update_idem]
      obtain ⟨charge, hcharge, hbase, -⟩ := h.charge
      have hall : ∀ other < configs.length, Within pool base ceilings other
          (Function.update W index (w.store file) other) := by
        intro other hother
        by_cases hne : other = index
        · subst hne
          rw [Function.update_self]
          exact (h.store (fun allocations h => hbudget.le allocations h other hindex) hmay).within
        · rw [Function.update_of_ne hne]
          exact hwithin other hother hne
      -- The write is of a target above the base, so the budget has room for everybody.
      obtain ⟨hknown, hfit⟩ := Within.affordable hbudget hpool hall hindex (by
        rw [hcharge, Option.getD_some] at hlt
        rw [Function.update_self]
        simp only [VmWorld.store, hidle, if_true, hcharge, Option.map_some, Option.getD_some]
        omega)
      refine ⟨?_, hfit⟩
      intro other hother
      have hsome := hknown other hother
      by_cases hne : other = index
      · subst hne
        rw [Function.update_self, hcharge]
        rfl
      · rw [Function.update_of_ne hne] at hsome ⊢
        exact hsome
  | _ => trivial

/-- A ready VM is served from its charge. -/
theorem Reported.serving {ready : Ready} {vm : VmController}
    (hreported : Reported config (.ready ready) vm (W index))
    (hle : ∀ allocations, ceilings = some allocations →
      baseCharge pool W index ≤ ceilingOf allocations index) :
    Serving (baseCharge pool W) ceilings index (W index) := by
  have hready := hreported.ready ready rfl
  have hcharge : (W index).charge = some ready.state.currentBytes :=
    hreported.charged.trans hready.remembered
  have hbase : baseCharge pool W index = ready.state.currentBytes := by
    rw [baseCharge, hcharge, Option.getD_some]
  refine ⟨⟨ready.state.currentBytes, hcharge, hbase.le, ?_⟩, ?_⟩
  · intro allocations hallocations
    rw [← hbase]
    exact hle allocations hallocations
  · intro live hlive
    rw [hready.live] at hlive
    cases hlive
    exact hbase.ge

/-- Between two VMs of the second phase: everybody is charged within the budget, and who is still to
be served is as it was observed. -/
structure Acts (pool : Option Nat) (configs : List HostConfig) (observed : List Observed)
    (base : Nat → Nat) (ceilings : Option (List PoolAllocation)) (order : List Nat)
    (s : HostRuntime) (W : HostWorld) : Prop where
  coupled : CoupledAll pool configs s W
  within : ∀ index < configs.length, Within pool base ceilings index (W index)
  ready : ∀ index ∈ order, ∀ ready, observed[index]? = some (.ready ready) →
    ∃ config, configs[index]? = some config ∧ ReadyFor config ready (W index) ∧
      Serving base ceilings index (W index)

theorem ensuresAll_actFrom {Q : Option HostRuntimeError → HostRuntime → HostWorld × Nat → Prop}
    {observed : List Observed} (hbudget : Budget pool configs.length base ceilings)
    (hQ : ∀ lastStop s W committed, CoupledAll pool configs s W → Q lastStop s (W, committed))
    (order : List Nat) :
    ∀ (s : HostRuntime) (W : HostWorld) (committed : Nat) (lastStop : Option HostRuntimeError),
      order.Nodup → Acts pool configs observed base ceilings order s W →
      EnsuresAll pool configs (HostRuntime.actFrom observed ceilings order committed lastStop) Q s
        (W, committed) := by
  induction order with
  | nil => exact fun s W committed lastStop _ h => hQ lastStop s W committed h.coupled
  | cons index order ih =>
      intro s W committed lastStop hnodup h
      obtain ⟨hnotin, hnodup⟩ := List.nodup_cons.mp hnodup
      have hskip : Acts pool configs observed base ceilings order s W :=
        ⟨h.coupled, h.within, fun other hother => h.ready other (List.mem_cons_of_mem _ hother)⟩
      apply ensuresAll_bind
      refine ensuresAll_stop fun stopped => ?_
      split
      · exact hQ _ _ _ _ h.coupled
      split
      swap
      · exact ih s W committed lastStop hnodup hskip
      next ready hobserved =>
      obtain ⟨config, hconfig, hready, hserving⟩ :=
        h.ready index List.mem_cons_self ready hobserved
      have hindex := (List.getElem?_eq_some_iff.mp hconfig).1
      have hle := fun allocations h => hbudget.le allocations h index hindex
      have hvm := List.getElem?_eq_getElem (h.coupled.length.symm ▸ hindex : index < s.vms.length)
      obtain ⟨_, hsame, hcoupled⟩ := h.coupled.coupled index _ hvm
      rw [hconfig] at hsame
      cases hsame
      apply ensuresAll_bind
      refine ensuresAll_onVm (Serving base ceilings index) hvm hconfig
        (fun w committed op hserving hmay =>
          hserving.affordable hbudget hindex (fun other hother _ => h.within other hother) hmay)
        (fun w committed op answer hserving hmay => hserving.next hle hmay) hserving
        (ensures_acted (Q := fun value vm' w' => value.2 = w'.2 ∧ Coupled config vm' w'.1) hcoupled
          hready fun stopped vm' w' committed' hcoupled => ⟨rfl, hcoupled⟩) ?_
      rintro ⟨stopped, _⟩ vm' w' committed' hserving' ⟨rfl, hcoupled'⟩
      apply ih _ _ _ _ hnodup
      -- The others are as they were, and this one is within its ceiling.
      refine ⟨h.coupled.set hconfig hcoupled', ?_, ?_⟩
      · intro other hother
        by_cases hne : other = index
        · subst hne
          rw [Function.update_self]
          exact hserving'.within
        · rw [Function.update_of_ne hne]
          exact h.within other hother
      · intro other hother
        have hne : other ≠ index := by
          rintro rfl
          exact hnotin hother
        rw [Function.update_of_ne hne]
        exact hskip.ready other hother

/-- **The second phase of a round keeps the protocol**, beginning with the growth every VM may still
make. -/
theorem ensuresAll_actAll {Q : Step → HostRuntime → HostWorld × Nat → Prop}
    {observed : List Observed} {lastStop : Option HostRuntimeError}
    (h : ObservedAll pool configs observed s W)
    (hQ : ∀ step s W committed, CoupledAll pool configs s W → Q step s (W, committed)) :
    EnsuresAll pool configs (HostRuntime.actAll observed lastStop) Q s (W, s.committed) := by
  apply ensuresAll_bind
  refine ensuresAll_stop fun stopped => ?_
  split
  · exact hQ _ _ _ _ h.coupled
  refine (Action.wp_bind _ _).mpr ?_
  refine Action.wp_get.mpr ?_
  refine (Action.wp_bind _ _).mpr ?_
  refine (Action.wp_ofExcept _).mpr ⟨fun ceilings hceilings => ?_, fun _ _ => trivial⟩
  have hbudget := allocate_budget h hceilings
  have hperm := servingOrder_perm
    (fun index => (s.vms[index]?.map (·.config.priority)).getD 0) s.vms.length
  apply ensuresAll_bind
  refine @ensuresAll_actFrom _ _ _ _ _ observed hbudget ?_ s.order s W s.committed lastStop
    (hperm.nodup_iff.mpr List.nodup_range) ?_
  · intro lastStop s W committed hcoupled
    exact hQ _ _ _ _ hcoupled
  refine ⟨h.coupled, ?_, ?_⟩
  -- Before the first VM is served everybody is charged its base.
  · intro index hindex poolBytes allocations hpool hallocations
    have hle := hbudget.le allocations hallocations index hindex
    rw [baseCharge, hpool, Option.getD_some] at hle ⊢
    cases hcharge : (W index).charge with
    | none => rfl
    | some charge =>
        rw [hcharge, Option.getD_some] at hle
        exact ⟨le_rfl, hle⟩
  · intro index _ ready hready
    obtain ⟨vm, config, -, hconfig, hreported, -⟩ := h.seen index _ hready
    have hindex := (List.getElem?_eq_some_iff.mp hconfig).1
    exact ⟨config, hconfig, hreported.ready ready rfl,
      hreported.serving fun allocations h => hbudget.le allocations h index hindex⟩

/-- **A round keeps the protocol**, whatever it is answered. -/
theorem round_safe (h : CoupledAll pool configs s W) :
    (HostRuntime.round s).Safe (hostLaw pool configs)
      (fun outcome W => ∀ step, outcome.1 = .ok step → CoupledAll pool configs outcome.2 W) W := by
  refine Prog.safe_bind.mpr ?_
  have hobserve := @Safe.forget _ pool configs W 0 _ _ (@ensuresAll_observeAll pool configs s W 0
    (fun value s W => value.elim (CoupledAll pool configs s W.1)
      fun observed => ObservedAll pool configs observed.1 s W.1) h
    (fun s W h => h) (fun observed lastStop s W h => h))
  refine hobserve.mono ?_
  rintro ⟨_ | value, s⟩ W ⟨committed, hvalue⟩
  · intro step hstep
    cases hstep
  rcases value with _ | ⟨observed, lastStop⟩
  · intro step hstep
    exact hvalue
  · have hact := @Safe.forget _ pool configs W s.committed _ _ (@ensuresAll_actAll pool configs s W
      (fun _ s W => CoupledAll pool configs s W.1) observed lastStop hvalue
      (fun _ _ _ _ h => h))
    refine hact.mono ?_
    rintro ⟨_ | value, s⟩ W ⟨committed, hvalue⟩ step hstep
    · cases hstep
    · exact hvalue

end VirtioMem.Host
