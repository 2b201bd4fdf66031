import VirtioMem.Core.Journal

/-!
# The journal over a whole run of calls

`Journal.lean` says what one call does. Here the two calls are put in any order, with any arguments,
and the journal is followed through all of them.

The record moves one way only. `JournalCall.step_cases` lists what a call can do to it: nothing, a
new request in the place of a settled one, or a further result for the request that is there. A
result **evolves** (`Evolves`): an uncertain one may be replaced by a later one, a terminal one stays.
What a run of calls does is the induction over that step.
-/

namespace VirtioMem.Core

/-- One call on the journal with its arguments. -/
inductive JournalCall where
  | admission (request : MemoryRequest) (vm service : String) (now futureToleranceMillis : Nat)
  | record (result : MemoryResult)

/-- The answer of a call, which for an admission says what was admitted, and the journal behind it. -/
def JournalCall.run (journal : MemoryRequestJournal) :
    JournalCall → Except String (Option RequestAdmission) × MemoryRequestJournal
  | .admission request vm service now futureToleranceMillis =>
      let (answer, journal) := journal.admitRequest request vm service now futureToleranceMillis
      (answer.map some, journal)
  | .record result =>
      let (answer, journal) := journal.recordResult result
      (answer.map fun _ => none, journal)

/-- The request a call admits as new. -/
def JournalCall.admittedNew (journal : MemoryRequestJournal) : JournalCall → Option MemoryRequest
  | .admission request vm service now futureToleranceMillis =>
      match (journal.admitRequest request vm service now futureToleranceMillis).1 with
      | .ok .new => some request
      | _ => none
  | .record _ => none

namespace MemoryRequestJournal

/-- The journal after a sequence of calls. -/
def after (journal : MemoryRequestJournal) (calls : List JournalCall) : MemoryRequestJournal :=
  calls.foldl (fun journal call => (call.run journal).2) journal

/-- The requests a sequence of calls admits as new, in order. -/
def admissions : MemoryRequestJournal → List JournalCall → List MemoryRequest
  | _, [] => []
  | journal, call :: calls =>
      (call.admittedNew journal).toList ++ admissions (call.run journal).2 calls

@[simp] theorem after_cons (journal : MemoryRequestJournal) (call : JournalCall)
    (calls : List JournalCall) :
    journal.after (call :: calls) = (call.run journal).2.after calls := rfl

theorem after_append (journal : MemoryRequestJournal) (first second : List JournalCall) :
    journal.after (first ++ second) = (journal.after first).after second := by
  simp [after]

/-! ## What one call does -/

/-- How the result of one request may change: an uncertain result may give way to one observed no
earlier, a terminal one stays what it is. -/
def Evolves : Option MemoryResult → Option MemoryResult → Prop
  | none, _ => True
  | some _, none => False
  | some earlier, some later =>
      earlier.observedUnixMillis ≤ later.observedUnixMillis ∧
        (earlier.terminal = true → later = earlier)

theorem Evolves.refl (result : Option MemoryResult) : Evolves result result := by
  cases result with
  | none => trivial
  | some result => exact ⟨le_rfl, fun _ => rfl⟩

theorem Evolves.trans {first second third : Option MemoryResult} (h : Evolves first second)
    (h' : Evolves second third) : Evolves first third := by
  rcases first with _ | first
  · trivial
  rcases second with _ | second
  · exact h.elim
  rcases third with _ | third
  · exact h'.elim
  refine ⟨h.1.trans h'.1, fun hterminal => ?_⟩
  -- A terminal first result is the second one too, so the second is terminal.
  have hsecond := h.2 hterminal
  rw [h'.2 (by rw [hsecond]; exact hterminal), hsecond]

/-- **Everything a call can do.** -/
theorem step_cases (call : JournalCall) (journal : MemoryRequestJournal) :
    ((call.run journal).2 = journal ∧ call.admittedNew journal = none) ∨
    (∃ request, call.admittedNew journal = some request ∧
      (call.run journal).2 = ⟨some request, none⟩ ∧ request.Valid ∧ journal.Settled ∧
      journal.Ahead request) ∨
    (∃ request result, call.admittedNew journal = none ∧ journal.request = some request ∧
      (call.run journal).2 = ⟨some request, some result⟩ ∧
      result.validateFor request = .ok () ∧ Evolves journal.result (some result)) := by
  cases call with
  | admission request vm service now tolerance =>
      cases h : journal.admitRequest request vm service now tolerance with
      | mk answer kept =>
          simp only [JournalCall.run, JournalCall.admittedNew, h]
          rcases admit_cases h with ⟨_, rfl, rfl⟩ | ⟨rfl, rfl, -⟩ | ⟨rfl, rfl, hvalid, hsettled, hahead⟩
          · exact .inl ⟨rfl, rfl⟩
          · exact .inl ⟨rfl, rfl⟩
          · exact .inr (.inl ⟨request, rfl, rfl, (MemoryRequest.validateAt_eq_ok.mp hvalid).1,
              hsettled, hahead⟩)
  | record result =>
      cases h : journal.recordResult result with
      | mk answer kept =>
          simp only [JournalCall.run, JournalCall.admittedNew, h]
          rcases recordResult_cases h with ⟨_, rfl, rfl⟩ | ⟨rfl, hrequest, rfl, hvalid, hearlier⟩
          · exact .inl ⟨rfl, trivial⟩
          refine .inr (.inr ⟨result.request, _, trivial, hrequest, by rw [hrequest], hvalid, ?_⟩)
          cases hprevious : journal.result with
          | none => trivial
          | some previous =>
              obtain ⟨hterminal, htime⟩ := hearlier previous hprevious
              exact ⟨htime, fun h => (hterminal h).symm⟩

/-- A call that answers an error leaves the journal exactly as it was. -/
theorem error_unchanged {journal : MemoryRequestJournal} {call : JournalCall} {error : String}
    (h : (call.run journal).1 = .error error) : (call.run journal).2 = journal := by
  cases call with
  | admission request vm service now tolerance =>
      cases hcall : journal.admitRequest request vm service now tolerance with
      | mk answer kept =>
          simp only [JournalCall.run, hcall] at h ⊢
          rcases admit_cases hcall with ⟨_, -, rfl⟩ | ⟨rfl, -⟩ | ⟨rfl, -⟩
          · rfl
          · cases h
          · cases h
  | record result =>
      cases hcall : journal.recordResult result with
      | mk answer kept =>
          simp only [JournalCall.run, hcall] at h ⊢
          rcases recordResult_cases hcall with ⟨_, -, rfl⟩ | ⟨rfl, -⟩
          · rfl
          · cases h

theorem step_valid {journal : MemoryRequestJournal} (h : journal.validate = .ok ())
    (call : JournalCall) : (call.run journal).2.validate = .ok () := by
  rcases step_cases call journal with ⟨hsame, -⟩ | ⟨request, -, hnew, hvalid, -⟩ |
    ⟨request, result, -, hrequest, hrecord, hvalid, -⟩
  · rw [hsame]; exact h
  · rw [hnew]
    simp [validate, MemoryRequest.validate_eq_ok.mpr hvalid]
  · have hrequest := (MemoryResult.validateFor_eq_ok.mp hvalid).1
    rw [hrecord]
    simp [validate, MemoryRequest.validate_eq_ok.mpr hrequest, hvalid]

/-! ## What a run of calls does -/

theorem after_valid {journal : MemoryRequestJournal} (h : journal.validate = .ok ())
    (calls : List JournalCall) : (journal.after calls).validate = .ok () := by
  induction calls generalizing journal with
  | nil => exact h
  | cons call calls ih => exact ih (step_valid h call)

/-- The watermark only rises. -/
theorem after_request {journal : MemoryRequestJournal} {request : MemoryRequest}
    (h : journal.request = some request) (calls : List JournalCall) :
    ∃ later, (journal.after calls).request = some later ∧
      request.issuedUnixMillis ≤ later.issuedUnixMillis := by
  induction calls generalizing journal request with
  | nil => exact ⟨request, h, le_rfl⟩
  | cons call calls ih =>
      rw [after_cons]
      rcases step_cases call journal with ⟨hsame, -⟩ | ⟨next, -, hnew, -, -, hahead⟩ |
        ⟨kept, result, -, hkept, hrecord, -⟩
      · rw [hsame]; exact ih h
      · obtain ⟨later, hlater, hle⟩ := @ih ⟨some next, none⟩ next rfl
        rw [hnew]
        exact ⟨later, hlater, ((hahead request h).1.le).trans hle⟩
      · rw [h] at hkept
        cases hkept
        rw [hrecord]
        exact ih rfl

/-- The requests admitted as new come in the order of their issuance, after the one the journal
started with. -/
theorem admissions_increasing (journal : MemoryRequestJournal) (calls : List JournalCall) :
    (journal.request.toList ++ journal.admissions calls).Pairwise
      (fun earlier later => earlier.issuedUnixMillis < later.issuedUnixMillis) := by
  induction calls generalizing journal with
  | nil => cases journal.request <;> simp [admissions]
  | cons call calls ih =>
      rw [admissions]
      rcases step_cases call journal with ⟨hsame, hnone⟩ | ⟨next, hadmitted, hnew, -, -, hahead⟩ |
        ⟨kept, result, hnone, hkept, hrecord, -⟩
      · rw [hsame, hnone]
        simpa using ih journal
      · have hlater := ih ⟨some next, none⟩
        rw [hadmitted, hnew]
        cases hrequest : journal.request with
        | none => simpa using hlater
        | some previous =>
            have hlt := (hahead previous hrequest).1
            simp only [Option.toList_some, List.singleton_append, List.pairwise_cons] at hlater ⊢
            refine ⟨?_, hlater⟩
            rintro request (_ | ⟨_, hrequest⟩)
            · exact hlt
            · exact hlt.trans (hlater.1 request hrequest)
      · have hlater := ih ⟨some kept, some result⟩
        rw [hnone, hrecord, hkept]
        simpa using hlater

/-- While one request is journalled, its result only evolves. -/
theorem after_evolves {journal : MemoryRequestJournal} {request : MemoryRequest}
    (h : journal.request = some request) {calls : List JournalCall}
    (h' : (journal.after calls).request = some request) :
    Evolves journal.result (journal.after calls).result := by
  induction calls generalizing journal with
  | nil => exact Evolves.refl _
  | cons call calls ih =>
      rw [after_cons] at h' ⊢
      rcases step_cases call journal with ⟨hsame, -⟩ | ⟨next, -, hnew, -, -, hahead⟩ |
        ⟨kept, result, -, hkept, hrecord, -, hevolves⟩
      · rw [hsame] at h' ⊢
        exact ih h h'
      · -- A new request has passed the watermark for good, so the old one is not there at the end.
        rw [hnew] at h'
        obtain ⟨later, hlater, hle⟩ := @after_request ⟨some next, none⟩ next rfl calls
        rw [h'] at hlater
        cases hlater
        exact absurd hle (not_le.mpr (hahead request h).1)
      · rw [h] at hkept
        cases hkept
        rw [hrecord] at h' ⊢
        exact hevolves.trans (ih rfl h')

/-- **The journal is a monotone record.** From a valid journal on, whatever is called with whatever
arguments: it stays valid, an error changes nothing, a new admission needs a settled journal, the
requests admitted as new are issued one strictly after the other, and the result of one request only
evolves. -/
theorem monotone_record {journal : MemoryRequestJournal} (h : journal.validate = .ok ())
    (calls : List JournalCall) :
    (journal.after calls).validate = .ok () ∧
    (∀ (call : JournalCall) error, (call.run (journal.after calls)).1 = .error error →
      (call.run (journal.after calls)).2 = journal.after calls) ∧
    (∀ call : JournalCall, (call.run (journal.after calls)).1 = .ok (some .new) →
      (journal.after calls).Settled) ∧
    (journal.request.toList ++ journal.admissions calls).Pairwise
      (fun earlier later => earlier.issuedUnixMillis < later.issuedUnixMillis) ∧
    (journal.admissions calls).Nodup ∧
    ∀ request more, (journal.after calls).request = some request →
      (journal.after (calls ++ more)).request = some request →
      Evolves (journal.after calls).result (journal.after (calls ++ more)).result := by
  have hincreasing := admissions_increasing journal calls
  refine ⟨after_valid h calls, fun _ _ => error_unchanged, ?_, hincreasing, ?_, ?_⟩
  · intro call hanswer
    cases call with
    | admission request vm service now tolerance =>
        cases hcall : (journal.after calls).admitRequest request vm service now tolerance with
        | mk answer kept =>
            simp only [JournalCall.run, hcall] at hanswer
            rcases admit_cases hcall with ⟨_, rfl, -⟩ | ⟨rfl, -⟩ | ⟨-, -, -, hsettled, -⟩
            · cases hanswer
            · cases hanswer
            · exact hsettled
    | record result =>
        simp only [JournalCall.run] at hanswer
        cases hcall : ((journal.after calls).recordResult result).1 with
        | error error => rw [hcall] at hanswer; cases hanswer
        | ok _ => rw [hcall] at hanswer; cases hanswer
  · -- No request is admitted twice: it would have been issued after itself.
    have hlater := (List.pairwise_append.mp hincreasing).2.1
    exact hlater.imp fun hlt heq => by rw [heq] at hlt; exact lt_irrefl _ hlt
  · intro request more hrequest hmore
    rw [after_append] at hmore ⊢
    exact after_evolves hrequest hmore

/-- An Add issued and refused, and one issued after it. -/
def exampleCalls : List JournalCall :=
  let request (sequence issued : Nat) : MemoryRequest :=
    { version := 1, identity := ⟨"vm", "service", "session", sequence⟩, operation := .add,
      bytes := 1, issuedUnixMillis := issued, expiresUnixMillis := issued + 1000 }
  [.admission (request 1 10) "vm" "service" 20 0,
    .record (.rejected (request 1 10) 20 "refused"),
    .admission (request 2 30) "vm" "service" 40 0]

theorem exampleCalls_monotone :
    (empty.admissions exampleCalls).map (·.issuedUnixMillis) = [10, 30] ∧
      (empty.after exampleCalls).validate = .ok () ∧ (empty.admissions exampleCalls).Nodup :=
  have h := @monotone_record empty rfl exampleCalls
  ⟨by decide +kernel, h.1, h.2.2.2.2.1⟩

end MemoryRequestJournal

end VirtioMem.Core
