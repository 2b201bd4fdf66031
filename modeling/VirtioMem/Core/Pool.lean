import VirtioMem.Lib.Word
import Mathlib.Data.List.Sort
import Mathlib.Algebra.Order.BigOperators.Group.Finset

/-!
# The shared pool

One round's allocation of the device bytes that several VMs share. Each member is charged what it
holds, and what the charges leave free is handed out, the highest priority first. The pool takes
nothing away: a ceiling is never below a charge.

`allocatePool_sound` is what the runtime relies on. The ceilings exceed the pool only when the
charges already did, and then nobody gets anything.
-/

namespace VirtioMem.Core

open VirtioMem.Word

/-- One member's inputs for a round, in device bytes. -/
structure PoolMember where
  /-- Larger is served first when free bytes run out. -/
  priority : Nat
  chargedBytes : Nat
  desiredBytes : Nat
  blockBytes : Nat
  deriving DecidableEq, Repr

structure PoolAllocation where
  ceilingBytes : Nat
  /-- Growth the member wanted but could not get this round. -/
  unmetBytes : Nat
  deriving DecidableEq, Repr

inductive PoolError where
  | invalidBlock
  | overflow
  deriving DecidableEq, Repr

def PoolError.toString : PoolError → String
  | invalidBlock => "pool member block size must be a non-zero power of two"
  | overflow => "pool accounting overflowed"

/-- The indices below `n`, highest priority first and otherwise in order: the sort is stable. -/
def servingOrder (priority : Nat → Nat) (n : Nat) : List Nat :=
  (List.range n).insertionSort fun left right => priority right ≤ priority left

/-- What a member gets out of the bytes that are still free. -/
def PoolMember.granted (member : PoolMember) (free : Nat) : Nat :=
  alignDown (min (member.desiredBytes - member.chargedBytes) free) member.blockBytes

/-- Serve one member: the bytes still free and the allocations made so far. -/
def serve (members : List PoolMember) (state : Nat × List PoolAllocation) (index : Nat) :
    Nat × List PoolAllocation :=
  match members[index]? with
  | none => state
  | some member =>
    (state.1 - member.granted state.1, state.2.set index {
      ceilingBytes := member.chargedBytes + member.granted state.1
      unmetBytes := member.desiredBytes - member.chargedBytes - member.granted state.1 })

/-- The sum of the charges, unless it leaves the range. -/
def chargedTotal (members : List PoolMember) : Option Nat :=
  members.foldlM (fun total member => checkedAdd total member.chargedBytes) 0

def allocatePool (poolBytes : Nat) (members : List PoolMember) :
    Except PoolError (List PoolAllocation) :=
  if members.any fun member => member.blockBytes == 0 || !isPowerOfTwo member.blockBytes then
    .error .invalidBlock
  else
    match chargedTotal members with
    | none => .error .overflow
    | some charged =>
      .ok ((servingOrder (fun index => (members[index]?.map PoolMember.priority).getD 0)
        members.length).foldl (serve members)
          (poolBytes - charged, List.replicate members.length ⟨0, 0⟩)).2

/-! ## What an allocation gives out -/

/-- The charge of a member, and the ceiling it was given. -/
def chargeOf (members : List PoolMember) (index : Nat) : Nat :=
  (members[index]?.map PoolMember.chargedBytes).getD 0

def ceilingOf (allocations : List PoolAllocation) (index : Nat) : Nat :=
  (allocations[index]?.map PoolAllocation.ceilingBytes).getD 0

theorem sum_map_range (f : Nat → Nat) (n : Nat) :
    ((List.range n).map f).sum = ∑ index ∈ Finset.range n, f index := rfl

theorem servingOrder_perm (priority : Nat → Nat) (n : Nat) :
    (servingOrder priority n).Perm (List.range n) :=
  List.perm_insertionSort _ _

theorem PoolMember.granted_le (member : PoolMember) (free : Nat) : member.granted free ≤ free :=
  le_trans (alignDown_le _ _) (min_le_right _ _)

theorem serve_length (members : List PoolMember) (state : Nat × List PoolAllocation) (index : Nat) :
    (serve members state index).2.length = state.2.length := by
  unfold serve
  split
  · rfl
  · exact List.length_set ..

/-- Serving a member touches no other's allocation. -/
theorem serve_other {members : List PoolMember} {state : Nat × List PoolAllocation}
    {index other : Nat} (h : other ≠ index) :
    ceilingOf (serve members state index).2 other = ceilingOf state.2 other := by
  unfold serve ceilingOf
  split
  · rfl
  · rw [List.getElem?_set_ne h.symm]

/-- Serving a member moves its grant from the free bytes to its ceiling. -/
theorem serve_self {members : List PoolMember} {state : Nat × List PoolAllocation} {index : Nat}
    (hmember : index < members.length) (hlength : state.2.length = members.length) :
    ∃ grant, ceilingOf (serve members state index).2 index = chargeOf members index + grant ∧
      (serve members state index).1 + grant = state.1 := by
  have hindex : index < state.2.length := hlength ▸ hmember
  refine ⟨(members[index]).granted state.1, ?_, ?_⟩
  · simp [serve, ceilingOf, chargeOf, List.getElem?_eq_getElem hmember, hindex]
  · have hle := (members[index]).granted_le state.1
    simp only [serve, List.getElem?_eq_getElem hmember]
    omega

/-- **One pass over an order.** Every member of it ends at least at its charge, and what they end
above their charges was free before. -/
theorem serve_all {members : List PoolMember} :
    ∀ (order : List Nat) (state : Nat × List PoolAllocation), order.Nodup →
      (∀ index ∈ order, index < members.length) → state.2.length = members.length →
      (∀ other, other ∉ order →
        ceilingOf (order.foldl (serve members) state).2 other = ceilingOf state.2 other) ∧
      ∃ grant : Nat → Nat,
        (∀ index ∈ order, ceilingOf (order.foldl (serve members) state).2 index =
          chargeOf members index + grant index) ∧
        (order.foldl (serve members) state).1 + (order.map grant).sum = state.1 := by
  intro order
  induction order with
  | nil => exact fun state _ _ _ => ⟨fun _ _ => rfl, fun _ => 0, by simp, by simp⟩
  | cons first rest ih =>
      intro state hnodup hmembers hlength
      obtain ⟨hfirst, hrest⟩ := List.nodup_cons.mp hnodup
      obtain ⟨hothers, grant, hceilings, hsum⟩ := ih (serve members state first) hrest
        (fun index h => hmembers index (List.mem_cons_of_mem _ h))
        ((serve_length ..).trans hlength)
      obtain ⟨granted, hceiling, hfree⟩ := serve_self (hmembers first List.mem_cons_self) hlength
      have hchanged : ∀ index ∈ rest, Function.update grant first granted index = grant index := by
        intro index h
        apply Function.update_of_ne
        rintro rfl
        exact hfirst h
      refine ⟨?_, Function.update grant first granted, ?_, ?_⟩
      · intro other hother
        obtain ⟨hne, hother⟩ := not_or.mp (fun h => hother (List.mem_cons.mpr h))
        exact (hothers other hother).trans (serve_other hne)
      · intro index hindex
        rcases List.mem_cons.mp hindex with rfl | hindex
        · rw [Function.update_self, ← hceiling]
          exact hothers index hfirst
        · rw [hchanged index hindex]
          exact hceilings index hindex
      · rw [List.map_cons, List.sum_cons, Function.update_self, List.map_congr_left hchanged]
        simp only [List.foldl_cons]
        omega

/-- The checked sum is the sum. -/
theorem chargedTotal_eq_some {members : List PoolMember} {charged : Nat}
    (h : chargedTotal members = some charged) :
    charged = ∑ index ∈ Finset.range members.length, chargeOf members index := by
  have hfold : ∀ (members : List PoolMember) (start : Nat),
      members.foldlM (fun total member => checkedAdd total member.chargedBytes) start =
        some charged → charged = start + (members.map PoolMember.chargedBytes).sum := by
    intro members
    induction members with
    | nil => intro start h; simpa using h.symm
    | cons member members ih =>
        intro start h
        rw [List.foldlM_cons] at h
        obtain ⟨next, hnext, h⟩ := Option.bind_eq_some_iff.mp h
        rw [ih next h, (checkedAdd_eq_some.mp hnext).1]
        simp [Nat.add_assoc]
  rw [hfold members 0 h, Nat.zero_add, ← sum_map_range]
  congr 1
  apply List.ext_getElem
  · simp
  · intro index hmap hrange
    have hmember : index < members.length := by simpa using hmap
    simp [chargeOf, List.getElem?_eq_getElem hmember]

/-- **An allocation is sound.** No ceiling is below its charge; if one is above it, the charges left
something free and the ceilings fit the pool. -/
theorem allocatePool_sound {poolBytes : Nat} {members : List PoolMember}
    {allocations : List PoolAllocation} (h : allocatePool poolBytes members = .ok allocations) :
    (∀ index < members.length, chargeOf members index ≤ ceilingOf allocations index) ∧
      ((∃ index < members.length, chargeOf members index < ceilingOf allocations index) →
        ∑ index ∈ Finset.range members.length, chargeOf members index < poolBytes ∧
        ∑ index ∈ Finset.range members.length, ceilingOf allocations index ≤ poolBytes) := by
  unfold allocatePool at h
  split_ifs at h with hblocks
  split at h
  · cases h
  next charged hcharged =>
  cases h
  have hperm := servingOrder_perm (fun index => (members[index]?.map PoolMember.priority).getD 0)
    members.length
  obtain ⟨-, grant, hceilings, hsum⟩ := @serve_all members _
    (poolBytes - charged, List.replicate members.length ⟨0, 0⟩)
    (hperm.nodup_iff.mpr List.nodup_range)
    (fun index hindex => List.mem_range.mp (hperm.mem_iff.mp hindex)) (by simp)
  rw [(hperm.map grant).sum_eq, sum_map_range, chargedTotal_eq_some hcharged] at hsum
  have hceiling : ∀ index < members.length, _ = chargeOf members index + grant index :=
    fun index hindex => hceilings index (hperm.mem_iff.mpr (List.mem_range.mpr hindex))
  constructor
  · intro index hindex
    rw [hceiling index hindex]
    exact Nat.le_add_right _ _
  · rintro ⟨index, hindex, hlt⟩
    rw [hceiling index hindex] at hlt
    -- A grant was taken from what the charges left, so something was left.
    have hle : grant index ≤ ∑ other ∈ Finset.range members.length, grant other :=
      Finset.single_le_sum (fun _ _ => Nat.zero_le _) (Finset.mem_range.mpr hindex)
    rw [Finset.sum_congr rfl fun other hother => hceiling other (Finset.mem_range.mp hother),
      Finset.sum_add_distrib]
    simp only at hsum
    omega

end VirtioMem.Core
