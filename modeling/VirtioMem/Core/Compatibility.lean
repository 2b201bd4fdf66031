import VirtioMem.Core.Device
import VirtioMem.Lib.Result

/-!
# Compatibility evidence

A device may be resized only where three facts about it are known: its memory slots are dynamic, what
is unplugged is inaccessible, and its workload has been reviewed. Each source of evidence may confirm
a fact, reject it, or not know. `merge` completes one source by another and refuses two that
disagree, so after it and `validateForResize` nobody has rejected anything
(`merge_validateForResize`).
-/

namespace VirtioMem.Core

open VirtioMem.Result

inductive CompatibilityEvidence where
  | confirmed
  | rejected
  | unknown
  deriving DecidableEq, Repr

structure VirtioMemCompatibility where
  dynamicMemslots : CompatibilityEvidence
  unpluggedInaccessible : CompatibilityEvidence
  workloadReview : CompatibilityEvidence
  deriving DecidableEq, Repr

inductive VirtioMemCompatibilityError where
  | insufficientEvidence (missing : String)
  | conflictingEvidence (field : String)
  deriving DecidableEq, Repr

def VirtioMemCompatibilityError.toString : VirtioMemCompatibilityError → String
  | insufficientEvidence missing =>
      s!"virtio-mem compatibility evidence is insufficient: {missing}"
  | conflictingEvidence field => s!"conflicting virtio-mem compatibility evidence for {field}"

/-- One fact, from two sources. -/
def mergeEvidence (first second : CompatibilityEvidence) (field : String) :
    Except VirtioMemCompatibilityError CompatibilityEvidence :=
  match first, second with
  | .unknown, value => .ok value
  | value, .unknown => .ok value
  | left, right => if left = right then .ok left else .error (.conflictingEvidence field)

namespace VirtioMemCompatibility

def confirmed : VirtioMemCompatibility := ⟨.confirmed, .confirmed, .confirmed⟩

def merge (self other : VirtioMemCompatibility) :
    Except VirtioMemCompatibilityError VirtioMemCompatibility := do
  let dynamicMemslots ← mergeEvidence self.dynamicMemslots other.dynamicMemslots "dynamic-memslots"
  let unpluggedInaccessible ← mergeEvidence self.unpluggedInaccessible other.unpluggedInaccessible
    "unplugged-inaccessible"
  let workloadReview ← mergeEvidence self.workloadReview other.workloadReview
    "workload compatibility review"
  return { dynamicMemslots, unpluggedInaccessible, workloadReview }

def validateForResize (self : VirtioMemCompatibility) : Except VirtioMemCompatibilityError Unit :=
  if self.dynamicMemslots ≠ .confirmed then
    .error (.insufficientEvidence "dynamic-memslots must be explicitly enabled")
  else if self.unpluggedInaccessible ≠ .confirmed then
    .error (.insufficientEvidence "unplugged-inaccessible must be explicitly enabled")
  else if self.workloadReview ≠ .confirmed then
    .error (.insufficientEvidence "incompatible workload/device review must be confirmed")
  else .ok ()

theorem validateForResize_eq_ok {self : VirtioMemCompatibility} :
    self.validateForResize = .ok () ↔ self = confirmed := by
  cases self
  unfold validateForResize confirmed
  split_ifs <;> simp_all

end VirtioMemCompatibility

/-- A merged fact is confirmed where one source confirms it and the other does not reject it. -/
theorem mergeEvidence_confirmed {first second : CompatibilityEvidence} {field : String} :
    mergeEvidence first second field = .ok .confirmed ↔
      (first = .confirmed ∧ second ≠ .rejected) ∨ (second = .confirmed ∧ first ≠ .rejected) := by
  cases first <;> cases second <;> simp [mergeEvidence]

/-- **What a resize has checked.** Of every fact, one source confirms it and neither rejects it. -/
theorem VirtioMemCompatibility.merge_validateForResize {self other : VirtioMemCompatibility} :
    (∃ merged, self.merge other = .ok merged ∧ merged.validateForResize = .ok ()) ↔
      ∀ fact ∈ [dynamicMemslots, unpluggedInaccessible, workloadReview],
        (fact self = .confirmed ∧ fact other ≠ .rejected) ∨
          (fact other = .confirmed ∧ fact self ≠ .rejected) := by
  simp only [validateForResize_eq_ok, List.forall_mem_cons]
  constructor
  · rintro ⟨merged, hmerge, rfl⟩
    obtain ⟨memslots, hmemslots, hmerge⟩ := bind_eq_ok.mp hmerge
    obtain ⟨inaccessible, hinaccessible, hmerge⟩ := bind_eq_ok.mp hmerge
    obtain ⟨review, hreview, hmerge⟩ := bind_eq_ok.mp hmerge
    cases hmerge
    exact ⟨mergeEvidence_confirmed.mp hmemslots, mergeEvidence_confirmed.mp hinaccessible,
      mergeEvidence_confirmed.mp hreview, fun _ h => absurd h List.not_mem_nil⟩
  · rintro ⟨hmemslots, hinaccessible, hreview, -⟩
    refine ⟨confirmed, ?_, rfl⟩
    simp only [merge, mergeEvidence_confirmed.mpr hmemslots, mergeEvidence_confirmed.mpr hinaccessible,
      mergeEvidence_confirmed.mpr hreview]
    rfl

end VirtioMem.Core
