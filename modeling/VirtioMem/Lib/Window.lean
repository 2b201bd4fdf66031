import Mathlib.Algebra.Order.Group.Nat
import Mathlib.Data.List.Forall2
import Mathlib.Order.Basic

/-!
# Bucketed windows

A long stream of time-stamped samples is often kept as a short list of **buckets**: each remembers
when it was opened and bounds every sample that fell into it. New samples are merged into the last
bucket or open another one, and old buckets are dropped from the front.

`Covers` relates such a list to the stretch of the stream it stands for. The rules below are one for
each thing a program does to its buckets, and `Covers.complete` is what makes the compression sound:
once the oldest bucket was opened before a window begins, no sample of that window is missing.

`Spans` is about the times alone. Buckets that open a fixed width apart are few enough that a bounded
list never loses the one a window begins in, so a window that is complete stays complete
(`Spans.ready_iff`).
-/

namespace VirtioMem.Window

variable {α β : Type}

/-- How buckets describe samples. -/
structure Scheme (α β : Type) where
  /-- When a sample was taken. -/
  time : α → Nat
  /-- When a bucket was opened: the time of its first sample. -/
  opened : β → Nat
  /-- What a bucket remembers is at least what the sample had. -/
  bounds : β → α → Prop

variable (S : Scheme α β)

/-- The bucket was opened by the first of these samples and bounds them all. -/
def Summarises (samples : List α) (bucket : β) : Prop :=
  (∃ first rest, samples = first :: rest ∧ S.time first = S.opened bucket) ∧
    ∀ sample ∈ samples, S.bounds bucket sample

/-- The buckets stand, in order, for consecutive pieces that make up the samples. -/
def Covers (buckets : List β) (samples : List α) : Prop :=
  ∃ pieces : List (List α), samples = pieces.flatten ∧
    List.Forall₂ (Summarises S) pieces buckets

variable {S} {buckets : List β} {samples : List α}

theorem covers_nil : Covers S [] [] := ⟨[], rfl, .nil⟩

/-- A sample that opens a new bucket. -/
theorem Covers.push {bucket : β} {sample : α} (h : Covers S buckets samples)
    (hopened : S.time sample = S.opened bucket) (hbounds : S.bounds bucket sample) :
    Covers S (buckets ++ [bucket]) (samples ++ [sample]) := by
  obtain ⟨pieces, rfl, hpieces⟩ := h
  refine ⟨pieces ++ [[sample]], by simp, List.rel_append hpieces (.cons ?_ .nil)⟩
  exact ⟨⟨sample, [], rfl, hopened⟩, by simpa using hbounds⟩

/-- A sample merged into the last bucket. -/
theorem Covers.merge {last merged : β} {sample : α} (h : Covers S (buckets ++ [last]) samples)
    (hopened : S.opened merged = S.opened last)
    (hkeeps : ∀ sample, S.bounds last sample → S.bounds merged sample)
    (hbounds : S.bounds merged sample) :
    Covers S (buckets ++ [merged]) (samples ++ [sample]) := by
  obtain ⟨pieces, rfl, hpieces⟩ := h
  obtain ⟨front, back, hfront, hback, rfl⟩ :
      ∃ front back, List.Forall₂ (Summarises S) front buckets ∧
        List.Forall₂ (Summarises S) back [last] ∧ pieces = front ++ back := by
    have hsplit := List.forall₂_take_append pieces buckets [last] hpieces
    have hrest := List.forall₂_drop_append pieces buckets [last] hpieces
    exact ⟨_, _, hsplit, hrest, (List.take_append_drop _ _).symm⟩
  cases hback with
  | @cons piece _ _ _ hpiece hnil =>
      cases hnil
      obtain ⟨⟨first, rest, rfl, hfirst⟩, hall⟩ := hpiece
      refine ⟨front ++ [(first :: rest) ++ [sample]], by simp,
        List.rel_append hfront (.cons ?_ .nil)⟩
      refine ⟨⟨first, rest ++ [sample], rfl, hfirst.trans hopened.symm⟩, ?_⟩
      intro x hx
      rcases List.mem_append.mp hx with hx | hx
      · exact hkeeps x (hall x hx)
      · rw [List.mem_singleton.mp hx]; exact hbounds

/-- Dropping buckets from the front drops their samples and no others. -/
theorem Covers.drop {kept : List β} (h : Covers S buckets samples) (hkept : kept <:+ buckets) :
    ∃ dropped recent, samples = dropped ++ recent ∧ Covers S kept recent := by
  obtain ⟨front, rfl⟩ := hkept
  obtain ⟨pieces, rfl, hpieces⟩ := h
  refine ⟨(pieces.take front.length).flatten, (pieces.drop front.length).flatten, ?_,
    _, rfl, List.forall₂_drop_append pieces front kept hpieces⟩
  rw [← List.flatten_append, List.take_append_drop]

/-- Every sample is bounded by one of the buckets. -/
theorem Covers.bounded (h : Covers S buckets samples) :
    ∀ sample ∈ samples, ∃ bucket ∈ buckets, S.bounds bucket sample := by
  obtain ⟨pieces, rfl, hpieces⟩ := h
  induction hpieces with
  | nil => simp
  | @cons piece bucket pieces buckets hpiece _ ih =>
      intro sample hsample
      rcases List.mem_append.mp hsample with hsample | hsample
      · exact ⟨bucket, List.mem_cons_self, hpiece.2 sample hsample⟩
      · obtain ⟨other, hother, hbounds⟩ := ih sample hsample
        exact ⟨other, List.mem_cons_of_mem _ hother, hbounds⟩

/-- The oldest bucket was opened by the oldest sample. -/
theorem Covers.head {oldest : β} (h : Covers S (oldest :: buckets) samples) :
    ∃ first rest, samples = first :: rest ∧ S.time first = S.opened oldest := by
  obtain ⟨pieces, rfl, hpieces⟩ := h
  cases hpieces with
  | @cons piece _ pieces _ hpiece _ =>
      obtain ⟨⟨first, rest, rfl, hfirst⟩, -⟩ := hpiece
      exact ⟨first, rest ++ pieces.flatten, by simp, hfirst⟩

/-- **Nothing in the window is lost.** If time only moves forward and the oldest bucket was opened
by the time the window begins, every sample of the window is still covered. -/
theorem Covers.complete {oldest : β} {older recent : List α} {start : Nat}
    (h : Covers S (oldest :: buckets) recent)
    (hsorted : (older ++ recent).Pairwise (fun a b => S.time a < S.time b))
    (hstart : S.opened oldest ≤ start) :
    ∀ sample ∈ older ++ recent, start ≤ S.time sample → sample ∈ recent := by
  obtain ⟨first, rest, rfl, hfirst⟩ := h.head
  intro sample hsample htime
  rcases List.mem_append.mp hsample with hsample | hsample
  · have hlt := (List.pairwise_append.mp hsorted).2.2 sample hsample first List.mem_cons_self
    omega
  · exact hsample

/-! ## Buckets a width apart -/

/-- Opening times at least a width apart, none of them in the future. The first ones may be gone: the
oldest is the time it all began, or a whole window old. -/
structure Spans (width window began : Nat) (times : List Nat) (now : Nat) : Prop where
  spaced : times.Pairwise fun a b => a + width ≤ b
  past : ∀ t ∈ times, t ≤ now
  oldest : ∃ oldest rest, times = oldest :: rest ∧ began ≤ oldest ∧
    (oldest = began ∨ oldest + window ≤ now)

section Spans

variable {width window began now later : Nat} {times : List Nat}

theorem Spans.begin (width window now : Nat) : Spans width window now [now] now where
  spaced := List.pairwise_singleton _ _
  past := by simp
  oldest := ⟨now, [], rfl, le_rfl, .inl rfl⟩

/-- Time passes while the last bucket is open. -/
theorem Spans.wait (h : Spans width window began times now) (hle : now ≤ later) :
    Spans width window began times later where
  spaced := h.spaced
  past t ht := (h.past t ht).trans hle
  oldest := by
    obtain ⟨oldest, rest, htimes, hbegan, holdest⟩ := h.oldest
    exact ⟨oldest, rest, htimes, hbegan, holdest.imp_right fun hold => hold.trans hle⟩

/-- The last of these times is the latest of all. -/
theorem le_of_last (hspaced : times.Pairwise fun a b => a + width ≤ b)
    (hlast : ∀ last, times.getLast? = some last → last + width ≤ later) :
    ∀ t ∈ times, t + width ≤ later := by
  intro t ht
  obtain ⟨front, last, rfl⟩ : ∃ front last, times = front ++ [last] :=
    ⟨_, _, (List.dropLast_append_getLast (List.ne_nil_of_mem ht)).symm⟩
  have hlatest := hlast last List.getLast?_concat
  rcases List.mem_append.mp ht with ht | ht
  · have := (List.pairwise_append.mp hspaced).2.2 t ht last (List.mem_singleton_self _)
    omega
  · rwa [List.mem_singleton.mp ht]

/-- A new bucket opens. -/
theorem Spans.open (h : Spans width window began times now) (hle : now ≤ later)
    (hopen : ∀ t ∈ times, t + width ≤ later) :
    Spans width window began (times ++ [later]) later where
  spaced := List.pairwise_append.mpr
    ⟨h.spaced, List.pairwise_singleton _ _, fun t ht _ hlater => by
      rw [List.mem_singleton.mp hlater]
      exact hopen t ht⟩
  past t ht := by
    rcases List.mem_append.mp ht with ht | ht
    · exact (h.past t ht).trans hle
    · exact (List.mem_singleton.mp ht).le
  oldest := by
    obtain ⟨oldest, rest, rfl, hbegan, holdest⟩ := h.oldest
    exact ⟨oldest, rest ++ [later], rfl, hbegan, holdest.imp_right fun hold => hold.trans hle⟩

/-- The front may go where what stays reaches back a whole window. -/
theorem Spans.drop {oldest : Nat} {rest : List Nat} (h : Spans width window began times now)
    (hsuffix : oldest :: rest <:+ times) (hold : oldest + window ≤ now) :
    Spans width window began (oldest :: rest) now where
  spaced := h.spaced.sublist hsuffix.sublist
  past t ht := h.past t (hsuffix.subset ht)
  oldest := by
    refine ⟨oldest, rest, rfl, ?_, .inr hold⟩
    obtain ⟨first, others, rfl, hbegan, -⟩ := h.oldest
    rcases List.mem_cons.mp (hsuffix.subset List.mem_cons_self) with rfl | hmem
    · exact hbegan
    · have := (List.pairwise_cons.mp h.spaced).1 oldest hmem
      omega

/-- Many buckets reach far back. -/
theorem Spans.reach {oldest : Nat} {rest : List Nat}
    (hspaced : (oldest :: rest).Pairwise fun a b => a + width ≤ b)
    (hpast : ∀ t ∈ oldest :: rest, t ≤ now) : oldest + rest.length * width ≤ now := by
  induction rest generalizing oldest with
  | nil => simpa using hpast oldest List.mem_cons_self
  | cons next rest ih =>
      obtain ⟨hfirst, hrest⟩ := List.pairwise_cons.mp hspaced
      have hnext := hfirst next List.mem_cons_self
      have hlong := ih hrest fun t ht => hpast t (List.mem_cons_of_mem _ ht)
      rw [List.length_cons, Nat.add_mul, Nat.one_mul]
      omega

/-- **A window is complete from the time it all began.** -/
theorem Spans.ready_iff {oldest : Nat} {rest : List Nat}
    (h : Spans width window began (oldest :: rest) now) :
    oldest + window ≤ now ↔ began + window ≤ now := by
  obtain ⟨_, _, heq, hbegan, holdest⟩ := h.oldest
  cases heq
  omega

end Spans

end VirtioMem.Window
