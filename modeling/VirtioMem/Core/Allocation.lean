import VirtioMem.Core.Pool
import VirtioMem.Lib.Greedy

/-!
# The allocation is greedy

The pool serves its members in turn: by priority, and as configured where priorities are equal. Each gets
the most whole blocks that it wants and that are left, so the grants are the lexicographically greatest
that the free bytes allow (`allocatePool_greedy`). Who is served when depends on the priorities alone:
the configuration order is immaterial where they differ, and a raised priority never costs a member
anything.
-/

namespace VirtioMem.Core

open VirtioMem.Word

/-! ## The order of service -/

def priorityOf (members : List PoolMember) (index : Nat) : Nat :=
  (members[index]?.map PoolMember.priority).getD 0

/-- `left` is served before `right`. -/
def Before (priority : Nat → Nat) (left right : Nat) : Prop :=
  priority right < priority left ∨ (priority left = priority right ∧ left < right)

/-- The indices below `n` in the order in which they are served. -/
structure Serves (priority : Nat → Nat) (n : Nat) (order : List Nat) : Prop where
  perm : order.Perm (List.range n)
  sorted : order.Pairwise (Before priority)

theorem Before.asymm {priority : Nat → Nat} {left right : Nat} (h : Before priority left right) :
    ¬ Before priority right left := by
  unfold Before at *
  omega

/-- There is only one such order. -/
theorem Serves.unique {priority : Nat → Nat} {n : Nat} {order other : List Nat}
    (h : Serves priority n order) (hother : Serves priority n other) : order = other :=
  (h.perm.trans hother.perm.symm).eq_of_pairwise
    (fun _ _ _ _ hleft hright => absurd hright hleft.asymm) h.sorted hother.sorted

/-- Two members of a list without repetitions stand in one order only. -/
theorem not_sublist_swap {list : List Nat} {a b : Nat} (hnodup : list.Nodup)
    (h : [a, b].Sublist list) : ¬ [b, a].Sublist list := by
  induction list with
  | nil => cases h
  | cons first list ih =>
      obtain ⟨hfirst, hnodup⟩ := List.nodup_cons.mp hnodup
      intro hswap
      cases h with
      | cons _ h =>
          cases hswap with
          | cons _ hswap => exact ih hnodup h hswap
          | cons_cons _ hswap => exact hfirst (h.subset (by simp))
      | cons_cons _ h =>
          cases hswap with
          | cons _ hswap => exact hfirst (hswap.subset (by simp))
          | cons_cons _ hswap => exact hfirst (h.subset (by simp))

/-- **The sort is by priority, and stable.** -/
theorem servingOrder_serves (priority : Nat → Nat) (n : Nat) :
    Serves priority n (servingOrder priority n) where
  perm := servingOrder_perm priority n
  sorted := by
    have : Std.Total fun left right : Nat => priority right ≤ priority left :=
      ⟨fun left right => le_total _ _⟩
    have : IsTrans Nat fun left right : Nat => priority right ≤ priority left :=
      ⟨fun _ _ _ h h' => h'.trans h⟩
    have hsorted : (servingOrder priority n).Pairwise
        fun left right => priority right ≤ priority left := List.pairwise_insertionSort _ _
    have hnodup := (servingOrder_perm priority n).nodup_iff.mpr List.nodup_range
    rw [List.pairwise_iff_forall_sublist] at hsorted ⊢
    intro left right hpair
    have hle := hsorted hpair
    rcases hle.lt_or_eq with hlt | heq
    · exact .inl hlt
    refine .inr ⟨heq.symm, ?_⟩
    by_contra hge
    -- Otherwise they stood the other way round before the sort, which is stable.
    have hlt : right < left := by
      refine lt_of_le_of_ne (not_lt.mp hge) ?_
      rintro rfl
      exact not_sublist_swap hnodup hpair hpair
    have hrange : [right, left].Sublist (List.range n) := by
      have hpairwise : [right, left].Pairwise (· < ·) := List.pairwise_pair.mpr hlt
      refine List.sublist_of_subperm_of_pairwise (List.subperm_of_subset hpairwise.nodup ?_) hpairwise
        List.pairwise_lt_range
      intro index hindex
      have hmem : index ∈ [left, right] := by simpa [or_comm] using hindex
      exact (servingOrder_perm priority n).subset (hpair.subset hmem)
    exact not_sublist_swap hnodup hpair
      (List.pair_sublist_insertionSort heq.ge hrange)

/-! ## What one member can get -/

def memberAt (members : List PoolMember) (index : Nat) : PoolMember :=
  members[index]?.getD ⟨0, 0, 0, 0⟩

namespace PoolMember

/-- The growth a member wants. -/
def wanted (self : PoolMember) : Nat := self.desiredBytes - self.chargedBytes

/-- What it may be granted: whole blocks, and no more than it wants. -/
def shares (self : PoolMember) : Set Nat :=
  {share | self.blockBytes ∣ share ∧ share ≤ self.wanted}

/-- Its result, for what it is granted. -/
def allocation (self : PoolMember) (grant : Nat) : PoolAllocation where
  ceilingBytes := self.chargedBytes + grant
  unmetBytes := self.wanted - grant

theorem alignDown_eq (value block : Nat) : alignDown value block = block * (value / block) := by
  have := Nat.div_add_mod value block
  unfold alignDown
  omega

/-- **A member gets the most that it may have and that is left.** -/
theorem granted_greatest (member : PoolMember) (free : Nat) :
    IsGreatest {share | share ∈ member.shares ∧ share ≤ free} (member.granted free) := by
  have hgranted : member.granted free ≤ min member.wanted free := alignDown_le _ _
  refine ⟨⟨⟨?_, hgranted.trans (min_le_left _ _)⟩, hgranted.trans (min_le_right _ _)⟩, ?_⟩
  · exact Dvd.intro _ (alignDown_eq _ _).symm
  · rintro share ⟨⟨⟨count, rfl⟩, hwanted⟩, hfree⟩
    show _ ≤ alignDown (min member.wanted free) member.blockBytes
    rw [alignDown_eq]
    rcases Nat.eq_zero_or_pos member.blockBytes with hzero | hpos
    · simp [hzero]
    · refine Nat.mul_le_mul_left _ ((Nat.le_div_iff_mul_le hpos).mpr ?_)
      rw [Nat.mul_comm]
      exact le_min hwanted hfree

theorem granted_mono (member : PoolMember) : Monotone member.granted := by
  intro few many hle
  obtain ⟨hshare, hfew⟩ := (member.granted_greatest few).1
  exact (member.granted_greatest many).2 ⟨hshare, hfew.trans hle⟩

/-- What a member misses a block of leaves less than that block. -/
theorem left_lt_block {member : PoolMember} {free : Nat} (hpos : 0 < member.blockBytes)
    (hunmet : member.blockBytes ≤ member.wanted - member.granted free) :
    free - member.granted free < member.blockBytes := by
  have heq : member.granted free = member.blockBytes * (min member.wanted free / member.blockBytes) :=
    alignDown_eq _ _
  have hdiv := Nat.div_add_mod (min member.wanted free) member.blockBytes
  have hmod := Nat.mod_lt (min member.wanted free) hpos
  omega

end PoolMember

/-! ## What all of them get -/

/-- **One pass over an order.** Every member of it gets the result for what it takes in turn, and no
other's result is touched. -/
theorem serve_grants {members : List PoolMember} :
    ∀ (order : List Nat) (state : Nat × List PoolAllocation), order.Nodup →
      (∀ index ∈ order, index < members.length) → state.2.length = members.length →
      ∃ grant : Nat → Nat,
        order.map grant =
          Greedy.served PoolMember.granted state.1 (order.map (memberAt members)) ∧
        (order.foldl (serve members) state).2.length = members.length ∧
        (∀ index, index ∉ order →
          (order.foldl (serve members) state).2[index]? = state.2[index]?) ∧
        ∀ index ∈ order, (order.foldl (serve members) state).2[index]? =
          some ((memberAt members index).allocation (grant index)) := by
  intro order
  -- By induction on the order; a grant of the rest is extended at the first member.
  induction order with
  | nil =>
      exact fun state _ _ hlength => ⟨fun _ => 0, rfl, hlength, fun _ _ => rfl, by simp⟩
  | cons first order ih =>
      intro state hnodup hbounds hlength
      obtain ⟨hfirst, hnodup⟩ := List.nodup_cons.mp hnodup
      have hmember := hbounds first List.mem_cons_self
      have hstate : serve members state first =
          (state.1 - (memberAt members first).granted state.1, state.2.set first
            ((memberAt members first).allocation ((memberAt members first).granted state.1))) := by
        simp [serve, memberAt, List.getElem?_eq_getElem hmember, PoolMember.allocation,
          PoolMember.wanted]
      obtain ⟨grant, hgrants, hlength', hother, heach⟩ := ih (serve members state first) hnodup
        (fun index hindex => hbounds index (List.mem_cons_of_mem _ hindex))
        ((serve_length ..).trans hlength)
      have hkept : ∀ index ∈ order, Function.update grant first
          ((memberAt members first).granted state.1) index = grant index := by
        intro index hindex
        apply Function.update_of_ne
        rintro rfl
        exact hfirst hindex
      refine ⟨Function.update grant first ((memberAt members first).granted state.1), ?_, hlength',
        ?_, ?_⟩
      · rw [List.map_cons, List.map_cons, Greedy.served_cons, Function.update_self,
          List.map_congr_left hkept, hgrants, hstate]
      · intro index hindex
        obtain ⟨hne, hindex⟩ := not_or.mp (fun h => hindex (List.mem_cons.mpr h))
        rw [List.foldl_cons, hother index hindex, hstate]
        exact List.getElem?_set_ne (Ne.symm hne)
      · intro index hindex
        rw [List.foldl_cons]
        rcases List.mem_cons.mp hindex with rfl | hindex
        · rw [hother index hfirst, hstate, Function.update_self]
          exact List.getElem?_set_self (hlength ▸ hmember)
        · rw [hkept index hindex]
          exact heach index hindex

/-- The bytes that the charges leave free. -/
def freeBytes (poolBytes : Nat) (members : List PoolMember) : Nat :=
  poolBytes - (members.map PoolMember.chargedBytes).sum

theorem chargedTotal_of_le {members : List PoolMember}
    (h : (members.map PoolMember.chargedBytes).sum ≤ maximum) :
    chargedTotal members = some (members.map PoolMember.chargedBytes).sum := by
  have hfold : ∀ (members : List PoolMember) (start : Nat),
      start + (members.map PoolMember.chargedBytes).sum ≤ maximum →
      members.foldlM (fun total member => checkedAdd total member.chargedBytes) start =
        some (start + (members.map PoolMember.chargedBytes).sum) := by
    intro members
    induction members with
    | nil => exact fun start _ => rfl
    | cons member members ih =>
        intro start hle
        rw [List.map_cons, List.sum_cons, ← Nat.add_assoc] at hle ⊢
        rw [List.foldlM_cons, checkedAdd_eq_some.mpr ⟨rfl, by omega⟩]
        exact ih _ hle
  have hall := hfold members 0 (by omega)
  rw [Nat.zero_add] at hall
  exact hall

/-- **The allocation is the pass over the order of service.** -/
theorem allocatePool_grants {poolBytes : Nat} {members : List PoolMember} {order : List Nat}
    (hblocks : ∀ member ∈ members, member.blockBytes ≠ 0 ∧ isPowerOfTwo member.blockBytes = true)
    (htotal : (members.map PoolMember.chargedBytes).sum ≤ maximum)
    (horder : Serves (priorityOf members) members.length order) :
    ∃ allocations grant, allocatePool poolBytes members = .ok allocations ∧
      allocations.length = members.length ∧
      order.map grant = Greedy.served PoolMember.granted (freeBytes poolBytes members)
        (order.map (memberAt members)) ∧
      ∀ index < members.length, allocations[index]? =
        some ((memberAt members index).allocation (grant index)) := by
  have hsort := horder.unique (servingOrder_serves _ _)
  obtain ⟨grant, hgrants, hlength, -, heach⟩ := @serve_grants members order
    (freeBytes poolBytes members, List.replicate members.length ⟨0, 0⟩)
    (horder.perm.nodup_iff.mpr List.nodup_range)
    (fun index hindex => List.mem_range.mp (horder.perm.mem_iff.mp hindex)) (by simp)
  refine ⟨_, grant, ?_, hlength, hgrants, fun index hindex =>
    heach index (horder.perm.mem_iff.mpr (List.mem_range.mpr hindex))⟩
  have hvalid : (members.any fun member =>
      member.blockBytes == 0 || !isPowerOfTwo member.blockBytes) = false := by
    rw [List.any_eq_false]
    intro member hmember
    obtain ⟨hzero, hpow⟩ := hblocks member hmember
    simp [hzero, hpow]
  unfold allocatePool
  rw [hvalid, chargedTotal_of_le htotal, hsort]
  rfl

/-! ## What it means to be greedy -/

/-- The growth a member wanted but did not get. -/
def unmetOf (allocations : List PoolAllocation) (index : Nat) : Nat :=
  (allocations[index]?.map PoolAllocation.unmetBytes).getD 0

/-- What a member got beyond its charge. -/
def grantOf (members : List PoolMember) (allocations : List PoolAllocation) (index : Nat) : Nat :=
  ceilingOf allocations index - chargeOf members index

/-- An assignment of growth that members and pool allow. -/
structure Feasible (poolBytes : Nat) (members : List PoolMember) (shares : Nat → Nat) : Prop where
  each : ∀ index < members.length, shares index ∈ (memberAt members index).shares
  fits : ∑ index ∈ Finset.range members.length, shares index ≤ freeBytes poolBytes members

/-- **A greedy allocation.** The grants are feasible, and in the order of service the greatest that are;
everything a member wanted is either granted or unmet, and who misses a block has left less than that to
all those behind it. -/
structure IsGreedy (poolBytes : Nat) (members : List PoolMember)
    (allocations : List PoolAllocation) : Prop where
  length : allocations.length = members.length
  charged : ∀ index < members.length, chargeOf members index ≤ ceilingOf allocations index
  feasible : Feasible poolBytes members (grantOf members allocations)
  accounted : ∀ index < members.length, ceilingOf allocations index + unmetOf allocations index =
    max (memberAt members index).desiredBytes (chargeOf members index)
  range : ∀ index < members.length, chargeOf members index ≤ maximum →
    (memberAt members index).desiredBytes ≤ maximum → ceilingOf allocations index ≤ maximum
  greatest : ∀ order shares, Serves (priorityOf members) members.length order →
    Feasible poolBytes members shares →
    order.map shares ≤ order.map (grantOf members allocations)
  starved : ∀ first index second,
    Serves (priorityOf members) members.length (first ++ index :: second) →
    (memberAt members index).blockBytes ≤ unmetOf allocations index →
    (second.map (grantOf members allocations)).sum < (memberAt members index).blockBytes

theorem chargeOf_eq {members : List PoolMember} {index : Nat} (h : index < members.length) :
    chargeOf members index = (memberAt members index).chargedBytes := by
  simp [chargeOf, memberAt, List.getElem?_eq_getElem h]

theorem memberAt_mem {members : List PoolMember} {index : Nat} (h : index < members.length) :
    memberAt members index ∈ members := by
  simp [memberAt, List.getElem?_eq_getElem h]

/-- What an order hands out is the sum over the members. -/
theorem Serves.sum {priority : Nat → Nat} {n : Nat} {order : List Nat} (h : Serves priority n order)
    (shares : Nat → Nat) :
    (order.map shares).sum = ∑ index ∈ Finset.range n, shares index := by
  rw [(h.perm.map shares).sum_eq, sum_map_range]

/-- A member in the middle of an order takes what those before it have left. -/
theorem grant_at {take : PoolMember → Nat → Nat} {free : Nat} {grant : Nat → Nat}
    {members : List PoolMember} {first second : List Nat} {index : Nat}
    (h : (first ++ index :: second).map grant =
      Greedy.served take free ((first ++ index :: second).map (memberAt members))) :
    grant index = take (memberAt members index)
        (Greedy.left take free (first.map (memberAt members))) ∧
      second.map grant = Greedy.served take
        (Greedy.left take free (first.map (memberAt members)) - grant index)
        (second.map (memberAt members)) := by
  rw [List.map_append, List.map_append, Greedy.served_append, List.map_cons, List.map_cons,
    Greedy.served_cons] at h
  obtain ⟨-, h⟩ := List.append_inj h (by simp)
  obtain ⟨hindex, hsecond⟩ := List.cons.inj h
  exact ⟨hindex, hindex ▸ hsecond⟩

section Result

variable {poolBytes : Nat} {members : List PoolMember} {allocations : List PoolAllocation}
  {grant : Nat → Nat} {index : Nat}

theorem grantOf_eq (hmember : index < members.length) (h : allocations[index]? =
    some ((memberAt members index).allocation (grant index))) :
    grantOf members allocations index = grant index := by
  rw [grantOf, chargeOf_eq hmember]
  simp [ceilingOf, h, PoolMember.allocation]

/-- Shares for the members are feasible if they are allowed along the order. -/
theorem feasible_iff {order : List Nat} {shares : Nat → Nat}
    (horder : Serves (priorityOf members) members.length order) :
    Feasible poolBytes members shares ↔ Greedy.Allowed PoolMember.shares
      (freeBytes poolBytes members) (order.map (memberAt members)) (order.map shares) := by
  have hindex : ∀ index, index ∈ order ↔ index < members.length :=
    fun index => horder.perm.mem_iff.trans List.mem_range
  constructor
  · intro h
    refine ⟨?_, (horder.sum shares).trans_le h.fits⟩
    rw [List.forall₂_map_left_iff, List.forall₂_map_right_iff, List.forall₂_same]
    exact fun index hmem => h.each index ((hindex index).mp hmem)
  · rintro ⟨heach, hsum⟩
    rw [List.forall₂_map_left_iff, List.forall₂_map_right_iff, List.forall₂_same] at heach
    exact ⟨fun index hlt => heach index ((hindex index).mpr hlt), (horder.sum shares) ▸ hsum⟩

/-- **The pass over the order of service is greedy.** -/
theorem isGreedy_of_grants {order : List Nat}
    (hblocks : ∀ member ∈ members, member.blockBytes ≠ 0 ∧ isPowerOfTwo member.blockBytes = true)
    (horder : Serves (priorityOf members) members.length order)
    (hlength : allocations.length = members.length)
    (hgrants : order.map grant = Greedy.served PoolMember.granted (freeBytes poolBytes members)
      (order.map (memberAt members)))
    (heach : ∀ index < members.length, allocations[index]? =
      some ((memberAt members index).allocation (grant index))) :
    IsGreedy poolBytes members allocations := by
  have hmem : ∀ index ∈ order, index < members.length :=
    fun index h => List.mem_range.mp (horder.perm.mem_iff.mp h)
  have hgrantOf : ∀ index < members.length, grantOf members allocations index = grant index :=
    fun index hindex => grantOf_eq hindex (heach index hindex)
  have hmap : order.map (grantOf members allocations) = order.map grant :=
    List.map_congr_left fun index h => hgrantOf index (hmem index h)
  have hfeasible : Feasible poolBytes members (grantOf members allocations) := by
    rw [feasible_iff horder, hmap, hgrants]
    exact Greedy.served_allowed PoolMember.granted_greatest _
  have hceiling : ∀ index < members.length, ceilingOf allocations index =
      (memberAt members index).chargedBytes + grant index :=
    fun index hindex => by simp [ceilingOf, heach index hindex, PoolMember.allocation]
  have hunmet : ∀ index < members.length,
      unmetOf allocations index = (memberAt members index).wanted - grant index :=
    fun index hindex => by simp [unmetOf, heach index hindex, PoolMember.allocation]
  have hwanted : ∀ index < members.length, grant index ≤ (memberAt members index).wanted :=
    fun index hindex => hgrantOf index hindex ▸ (hfeasible.each index hindex).2
  -- Length, ceiling, what is unmet, what is wanted, the optimum, and who is served in full.
  refine ⟨hlength, ?_, hfeasible, ?_, ?_, ?_, ?_⟩
  · intro index hindex
    rw [hceiling index hindex, chargeOf_eq hindex]
    exact Nat.le_add_right _ _
  · intro index hindex
    have := hwanted index hindex
    rw [hceiling index hindex, hunmet index hindex, chargeOf_eq hindex]
    unfold PoolMember.wanted at *
    omega
  · intro index hindex
    have := hwanted index hindex
    rw [hceiling index hindex, chargeOf_eq hindex]
    unfold PoolMember.wanted at *
    omega
  · intro other shares hother hshares
    rw [hother.unique horder, hmap, hgrants]
    exact Greedy.served_greatest PoolMember.granted_greatest ((feasible_iff horder).mp hshares)
  · intro first index second hsplit hmissing
    obtain rfl := hsplit.unique horder
    have hindex : index < members.length := hmem index (by simp)
    obtain ⟨htaken, hsecond⟩ := grant_at hgrants
    have hpos : 0 < (memberAt members index).blockBytes :=
      Nat.pos_of_ne_zero (hblocks _ (memberAt_mem hindex)).1
    rw [hunmet index hindex, htaken] at hmissing
    -- A member that goes short leaves less than one of its blocks, and those behind it get no more.
    have hleft := PoolMember.left_lt_block hpos hmissing
    rw [← htaken] at hleft
    have hsum := @Greedy.sum_served _ PoolMember.granted
      (Greedy.left PoolMember.granted (freeBytes poolBytes members) (first.map (memberAt members)) -
        grant index) PoolMember.granted_le (second.map (memberAt members))
    rw [← hsecond] at hsum
    rw [List.map_congr_left fun other hother => hgrantOf other (hmem other (by simp [hother]))]
    omega

end Result

/-! ## Two configurations -/

theorem map_memberAt (members : List PoolMember) :
    (List.range members.length).map (memberAt members) = members := by
  apply List.ext_getElem (by simp)
  intro index hrange hmember
  simp [memberAt, List.getElem?_eq_getElem hmember]

/-- The members in the order of service. -/
theorem Serves.queue_perm {members : List PoolMember} {order : List Nat}
    (h : Serves (priorityOf members) members.length order) :
    (order.map (memberAt members)).Perm members := by
  have hperm := h.perm.map (memberAt members)
  rwa [map_memberAt] at hperm

theorem priorityOf_eq {members : List PoolMember} {index : Nat} (h : index < members.length) :
    priorityOf members index = (memberAt members index).priority := by
  simp [priorityOf, memberAt, List.getElem?_eq_getElem h]

/-- Where no two priorities are equal, the members themselves say who is served first. -/
theorem Serves.queue_sorted {members : List PoolMember} {order : List Nat}
    (h : Serves (priorityOf members) members.length order)
    (hdistinct : (members.map PoolMember.priority).Nodup) :
    (order.map (memberAt members)).Pairwise fun left right => right.priority < left.priority := by
  have hmem : ∀ index ∈ order, index < members.length :=
    fun index hindex => List.mem_range.mp (h.perm.mem_iff.mp hindex)
  rw [List.pairwise_map]
  refine List.Pairwise.imp_of_mem ?_ h.sorted
  intro left right hleft hright hbefore
  rw [← priorityOf_eq (hmem left hleft), ← priorityOf_eq (hmem right hright)]
  rcases hbefore with hlt | ⟨heq, hlt⟩
  · exact hlt
  · -- Two indices of equal priority are one index.
    have hleft' := hmem left hleft
    have hright' := hmem right hright
    rw [priorityOf_eq hleft', priorityOf_eq hright'] at heq
    simp only [memberAt, List.getElem?_eq_getElem hleft', List.getElem?_eq_getElem hright',
      Option.getD_some] at heq
    rw [List.Nodup, List.pairwise_iff_getElem] at hdistinct
    have := hdistinct left right (by simpa) (by simpa) hlt
    simp only [List.getElem_map] at this
    exact absurd heq this

/-- What the members of a queue get, each beside its member. -/
def resultsOf (free : Nat) (queue : List PoolMember) : List (PoolMember × PoolAllocation) :=
  queue.zip (List.zipWith PoolMember.allocation queue (Greedy.served PoolMember.granted free queue))

/-- The members and their results are those of the queue. -/
theorem zip_perm {members : List PoolMember} {order : List Nat} {allocations : List PoolAllocation}
    {grant : Nat → Nat} {free : Nat}
    (horder : Serves (priorityOf members) members.length order)
    (hlength : allocations.length = members.length)
    (hgrants : order.map grant =
      Greedy.served PoolMember.granted free (order.map (memberAt members)))
    (heach : ∀ index < members.length, allocations[index]? =
      some ((memberAt members index).allocation (grant index))) :
    (members.zip allocations).Perm (resultsOf free (order.map (memberAt members))) := by
  let result : Nat → PoolMember × PoolAllocation := fun index =>
    (memberAt members index, (memberAt members index).allocation (grant index))
  have hzip : members.zip allocations = (List.range members.length).map result := by
    apply List.ext_getElem (by simp [hlength])
    intro index hzip hrange
    have hindex : index < members.length := by simpa using hrange
    have hallocation := heach index hindex
    rw [List.getElem?_eq_getElem (hlength ▸ hindex), Option.some_inj] at hallocation
    simp [result, hallocation, memberAt, List.getElem?_eq_getElem hindex]
  have hqueue : resultsOf free (order.map (memberAt members)) = order.map result := by
    rw [resultsOf, ← hgrants]
    simp [List.zipWith_map, List.zip_map', result]
  rw [hzip, hqueue]
  exact (horder.perm.map result).symm

/-- Priorities that differ leave one queue only. -/
theorem Serves.queue_unique {members members' : List PoolMember} {order order' : List Nat}
    (h : Serves (priorityOf members) members.length order)
    (h' : Serves (priorityOf members') members'.length order')
    (hperm : members'.Perm members) (hdistinct : (members.map PoolMember.priority).Nodup) :
    order'.map (memberAt members') = order.map (memberAt members) := by
  have hdistinct' : (members'.map PoolMember.priority).Nodup :=
    (hperm.map _).nodup_iff.mpr hdistinct
  refine ((h'.queue_perm.trans hperm).trans h.queue_perm.symm).eq_of_pairwise ?_
    (h'.queue_sorted hdistinct') (h.queue_sorted hdistinct)
  exact fun _ _ _ _ hlt hgt => absurd hlt hgt.asymm

theorem freeBytes_perm {poolBytes : Nat} {members members' : List PoolMember}
    (h : members'.Perm members) : freeBytes poolBytes members' = freeBytes poolBytes members := by
  rw [freeBytes, freeBytes, (h.map _).sum_eq]

/-- Two orders that differ in where one index stands: where it stands later, the same ones and perhaps
more stand before it. -/
theorem prefix_of_later {list list' first first' second second' : List Nat} {index : Nat}
    {before before' : Nat → Nat → Prop}
    (hperm : list'.Perm list) (hnodup : list.Nodup)
    (hlist : list = first ++ index :: second) (hlist' : list' = first' ++ index :: second')
    (hsorted : list.Pairwise before) (hsorted' : list'.Pairwise before')
    (hasymm : ∀ a b, before a b → ¬ before b a)
    (hsame : ∀ a b, a ≠ index → b ≠ index → (before' a b ↔ before a b))
    (hlater : ∀ a, a ≠ index → before' a index → before a index) : first' <+: first := by
  subst hlist hlist'
  have hnodup' := hperm.nodup_iff.mpr hnodup
  have hrest : (first' ++ second').Perm (first ++ second) := by
    have h := (List.perm_middle.symm.trans hperm).trans List.perm_middle
    exact (List.perm_cons index).mp h
  have hne : ∀ a ∈ first' ++ second', a ≠ index := by
    intro a ha heq
    subst heq
    have := (List.nodup_cons.mp (List.perm_middle.nodup_iff.mp hnodup')).1
    exact this ha
  have hdrop : ∀ {first second : List Nat},
      (first ++ second).Sublist (first ++ index :: second) :=
    fun {first second} => List.Sublist.append_left (List.sublist_cons_self _ _) first
  have heq : first' ++ second' = first ++ second := by
    refine hrest.eq_of_pairwise (fun a b _ _ hab hba => absurd hba (hasymm a b hab)) ?_
      (hsorted.sublist hdrop)
    refine List.Pairwise.imp_of_mem ?_ (hsorted'.sublist hdrop)
    exact fun ha hb h => (hsame _ _ (hne _ ha) (hne _ hb)).mp h
  refine List.prefix_of_prefix_length_le ⟨second', rfl⟩ (heq ▸ ⟨second, rfl⟩) ?_
  refine List.Subperm.length_le (List.subperm_of_subset (hnodup'.sublist
    (List.sublist_append_left _ _)) ?_)
  intro a ha
  have hmem : a ∈ first ++ second := hrest.subset (List.mem_append_left _ ha)
  refine (List.mem_append.mp hmem).resolve_right ?_
  -- Whoever is behind the index now was not before it then.
  intro hbehind
  have hbefore' : before' a index :=
    (List.pairwise_append.mp hsorted').2.2 a ha index List.mem_cons_self
  have hafter : before index a :=
    (List.pairwise_cons.mp (List.pairwise_append.mp hsorted).2.1).1 a hbehind
  exact hasymm _ _ hafter (hlater a (hne a (List.mem_append_left _ ha)) hbefore')

/-- The members with the priority of one of them set. -/
def withPriority (members : List PoolMember) (index priority : Nat) : List PoolMember :=
  members.set index { memberAt members index with priority := priority }

section Raise

variable {members : List PoolMember} {index priority : Nat}

@[simp] theorem length_withPriority :
    (withPriority members index priority).length = members.length :=
  List.length_set

theorem memberAt_withPriority_self (h : index < members.length) :
    memberAt (withPriority members index priority) index =
      { memberAt members index with priority := priority } := by
  simp [withPriority, memberAt, h]

theorem memberAt_withPriority_of_ne {other : Nat} (h : other ≠ index) :
    memberAt (withPriority members index priority) other = memberAt members other := by
  simp [withPriority, memberAt, List.getElem?_set_ne h.symm]

theorem priorityOf_withPriority_of_ne {other : Nat} (h : other ≠ index) :
    priorityOf (withPriority members index priority) other = priorityOf members other := by
  simp [withPriority, priorityOf, List.getElem?_set_ne h.symm]

theorem priorityOf_withPriority_self (h : index < members.length) :
    priorityOf (withPriority members index priority) index = priority := by
  have hlt : index < (withPriority members index priority).length := by simpa using h
  rw [priorityOf_eq hlt, memberAt_withPriority_self h]

/-- Nothing but a priority changes, so nothing else about the members does. -/
theorem map_withPriority {α : Type*} {f : PoolMember → α}
    (hf : ∀ member : PoolMember, f { member with priority := priority } = f member) :
    (withPriority members index priority).map f = members.map f := by
  apply List.ext_getElem?
  intro other
  by_cases h : other = index
  · subst h
    by_cases hlt : other < members.length
    · simp [withPriority, memberAt, hlt, hf]
    · simp [withPriority, hlt]
  · simp [withPriority, List.getElem?_set_ne (Ne.symm h)]

theorem withPriority_forall {P : PoolMember → Prop}
    (hP : ∀ member : PoolMember, P member → P { member with priority := priority })
    (hall : ∀ member ∈ members, P member) (hindex : index < members.length) :
    ∀ member ∈ withPriority members index priority, P member := by
  intro member hmember
  rcases List.mem_or_eq_of_mem_set hmember with hmember | rfl
  · exact hall member hmember
  · exact hP _ (hall _ (memberAt_mem hindex))

/-- **A raised priority takes nothing away.** Whoever is served before the member now was before. -/
theorem grant_raised {order order' : List Nat} {grant grant' : Nat → Nat} {free : Nat}
    (hindex : index < members.length) (hraised : (memberAt members index).priority ≤ priority)
    (horder : Serves (priorityOf members) members.length order)
    (horder' : Serves (priorityOf (withPriority members index priority)) members.length order')
    (hgrants : order.map grant =
      Greedy.served PoolMember.granted free (order.map (memberAt members)))
    (hgrants' : order'.map grant' = Greedy.served PoolMember.granted free
      (order'.map (memberAt (withPriority members index priority)))) :
    grant index ≤ grant' index := by
  have hmem : index ∈ order := horder.perm.mem_iff.mpr (List.mem_range.mpr hindex)
  have hmem' : index ∈ order' := horder'.perm.mem_iff.mpr (List.mem_range.mpr hindex)
  obtain ⟨first, second, hsplit⟩ := List.append_of_mem hmem
  obtain ⟨first', second', hsplit'⟩ := List.append_of_mem hmem'
  -- Raised, the member is served behind a beginning of those it was served behind before.
  have hbegins : first' <+: first := by
    refine prefix_of_later (horder'.perm.trans horder.perm.symm)
      (horder.perm.nodup_iff.mpr List.nodup_range) hsplit hsplit' horder.sorted horder'.sorted
      (fun _ _ h => h.asymm) ?_ ?_
    · intro a b ha hb
      rw [Before, Before, priorityOf_withPriority_of_ne ha, priorityOf_withPriority_of_ne hb]
    · intro a ha
      rw [Before, Before, priorityOf_withPriority_of_ne ha, priorityOf_withPriority_self hindex,
        priorityOf_eq hindex]
      omega
  have hnodup' : order'.Nodup := horder'.perm.nodup_iff.mpr List.nodup_range
  have hfirst' : index ∉ first' := by
    rw [hsplit'] at hnodup'
    intro h
    exact (List.nodup_append.mp hnodup').2.2 index h index (by simp) rfl
  have hsame : first'.map (memberAt (withPriority members index priority)) =
      first'.map (memberAt members) := by
    refine List.map_congr_left fun other hother => memberAt_withPriority_of_ne ?_
    rintro rfl
    exact hfirst' hother
  subst hsplit hsplit'
  have htaken := (grant_at hgrants).1
  have htaken' := (grant_at hgrants').1
  rw [hsame, memberAt_withPriority_self hindex] at htaken'
  rw [htaken, htaken']
  exact Greedy.take_left_mono PoolMember.granted_mono (hbegins.map (memberAt members))

end Raise

/-! ## The pool -/

/-- A list of members that the pool accepts: real block sizes, and charges whose sum is a number. -/
structure Poolable (members : List PoolMember) : Prop where
  blocks : ∀ member ∈ members, member.blockBytes ≠ 0 ∧ isPowerOfTwo member.blockBytes = true
  total : (members.map PoolMember.chargedBytes).sum ≤ maximum

theorem Poolable.perm {members members' : List PoolMember} (h : Poolable members)
    (hperm : members'.Perm members) : Poolable members' where
  blocks member hmember := h.blocks member (hperm.subset hmember)
  total := (hperm.map _).sum_eq.trans_le h.total

theorem Poolable.withPriority {members : List PoolMember} {index priority : Nat}
    (h : Poolable members) (hindex : index < members.length) :
    Poolable (withPriority members index priority) where
  blocks := withPriority_forall (fun _ hblock => hblock) h.blocks hindex
  total := by
    rw [map_withPriority fun _ => rfl]
    exact h.total

/-- **The allocation is the greedy one by strict priority.** The pool serves every list of members that it
accepts. Where the priorities differ, the results follow the members into any other order; and a member
whose priority is raised has no lower ceiling. -/
theorem allocatePool_greedy (poolBytes : Nat) {members : List PoolMember} (h : Poolable members) :
    ∃ allocations, allocatePool poolBytes members = .ok allocations ∧
      IsGreedy poolBytes members allocations ∧
      ((members.map PoolMember.priority).Nodup → ∀ members' : List PoolMember,
        members'.Perm members → ∃ allocations', allocatePool poolBytes members' = .ok allocations' ∧
          (members'.zip allocations').Perm (members.zip allocations)) ∧
      ∀ index < members.length, ∀ priority ≥ (memberAt members index).priority,
        ∃ allocations',
          allocatePool poolBytes (withPriority members index priority) = .ok allocations' ∧
          ceilingOf allocations index ≤ ceilingOf allocations' index := by
  have horder := servingOrder_serves (priorityOf members) members.length
  obtain ⟨allocations, grant, hallocate, hlength, hgrants, heach⟩ :=
    @allocatePool_grants poolBytes _ _ h.blocks h.total horder
  refine ⟨allocations, hallocate, isGreedy_of_grants h.blocks horder hlength hgrants heach, ?_, ?_⟩
  · intro hdistinct members' hperm
    have horder' := servingOrder_serves (priorityOf members') members'.length
    obtain ⟨allocations', grant', hallocate', hlength', hgrants', heach'⟩ :=
      @allocatePool_grants poolBytes _ _ (h.perm hperm).blocks (h.perm hperm).total horder'
    refine ⟨allocations', hallocate', ?_⟩
    have hresults := zip_perm horder hlength hgrants heach
    have hresults' := zip_perm horder' hlength' hgrants' heach'
    rw [horder.queue_unique horder' hperm hdistinct, freeBytes_perm hperm] at hresults'
    exact hresults'.trans hresults.symm
  · intro index hindex priority hraised
    have hpool := @Poolable.withPriority members index priority h hindex
    have horder' := servingOrder_serves (priorityOf (withPriority members index priority))
      (withPriority members index priority).length
    obtain ⟨allocations', grant', hallocate', hlength', hgrants', heach'⟩ :=
      @allocatePool_grants poolBytes _ _ hpool.blocks hpool.total horder'
    refine ⟨allocations', hallocate', ?_⟩
    -- Priorities do not change what is free.
    have hfree : freeBytes poolBytes (withPriority members index priority) =
        freeBytes poolBytes members := by
      rw [freeBytes, freeBytes, map_withPriority fun _ => rfl]
    rw [length_withPriority] at horder' heach'
    rw [hfree, length_withPriority] at hgrants'
    have hle := grant_raised hindex hraised horder horder' hgrants hgrants'
    have hself := heach' index hindex
    rw [memberAt_withPriority_self hindex] at hself
    simpa [ceilingOf, heach index hindex, hself, PoolMember.allocation] using hle

/-- Two members with blocks of different sizes; the second is served first. -/
def unevenMembers : List PoolMember := [⟨1, 4, 16, 4⟩, ⟨2, 8, 20, 8⟩]

/-- The second member gets the one block that it wants whole, and the remainder serves the first. -/
theorem unevenMembers_greedy : IsGreedy 26 unevenMembers [⟨8, 8⟩, ⟨16, 4⟩] := by
  obtain ⟨allocations, hallocate, hgreedy, -⟩ :=
    @allocatePool_greedy 26 unevenMembers ⟨by decide, by decide⟩
  have hruns : allocatePool 26 unevenMembers = .ok [⟨8, 8⟩, ⟨16, 4⟩] := by decide
  rw [hruns] at hallocate
  cases hallocate
  exact hgreedy

end VirtioMem.Core
