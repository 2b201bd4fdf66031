import VirtioMem.Core.Request

/-!
# The request journal

The host's retained admission record: the last admitted request and its result, if any. Both
operations hand back the journal they leave behind next to their answer, so that what an error leaves
behind is part of the model and not of its reading.

Admission is the only place where a request enters, and it is guarded by a **watermark**: a new
request must have been issued strictly after the one the journal holds. `admit_cases` says everything
an admission can do and `recordResult_cases` everything a result can; the development above uses
only these two.
-/

namespace VirtioMem.Core

structure MemoryRequestJournal where
  request : Option MemoryRequest
  result : Option MemoryResult
  deriving DecidableEq, Repr

inductive RequestAdmission where
  | new
  | replay
  deriving DecidableEq, Repr

namespace MemoryRequestJournal

def empty : MemoryRequestJournal := ⟨none, none⟩

def validate (self : MemoryRequestJournal) : Except String Unit :=
  match self.request, self.result with
  | none, none => .ok ()
  | some request, result =>
    match request.validate with
    | .error error => .error error
    | .ok () =>
      match result with
      | none => .ok ()
      | some result => result.validateFor request
  | none, some _ => .error "request journal has a result without an admission"

/-- The last check of an admission, and the admission itself. -/
def adopt (self : MemoryRequestJournal) (request : MemoryRequest) (vm service : String)
    (now futureToleranceMillis : Nat) : Except String RequestAdmission × MemoryRequestJournal :=
  match request.validateAt vm service now futureToleranceMillis with
  | .error error => (.error error, self)
  | .ok () => (.ok .new, { request := some request, result := none })

def admitRequest (self : MemoryRequestJournal) (request : MemoryRequest) (vm service : String)
    (now futureToleranceMillis : Nat) : Except String RequestAdmission × MemoryRequestJournal :=
  match self.validate with
  | .error error => (.error error, self)
  | .ok () =>
  match request.validate with
  | .error error => (.error error, self)
  | .ok () =>
  if request.identity.vmName ≠ vm ∨ request.identity.serviceName ≠ service then
    (.error "foreign memory request", self)
  else
  match self.request with
  | none => self.adopt request vm service now futureToleranceMillis
  | some previous =>
    if previous.identity.vmName ≠ vm ∨ previous.identity.serviceName ≠ service then
      (.error "foreign request journal", self)
    else if previous.identity = request.identity then
      if previous ≠ request then
        (.error "request identity was reused with different content", self)
      else (.ok .replay, self)
    else if self.result.all (fun result => !result.terminal) then
      (.error "an earlier request is unresolved, including across producer sessions", self)
    -- Issuance timestamps are a durable watermark, not just freshness.
    else if request.issuedUnixMillis ≤ previous.issuedUnixMillis ∨
        (request.identity.sessionId = previous.identity.sessionId ∧
          request.identity.sequence ≤ previous.identity.sequence) then
      (.error "memory request predates the retained replay watermark", self)
    else self.adopt request vm service now futureToleranceMillis

/-- Reasons are bounded first, so that an external error's text cannot make an otherwise valid
result unrecordable. -/
def recordResult (self : MemoryRequestJournal) (result : MemoryResult) :
    Except String Unit × MemoryRequestJournal :=
  match self.validate with
  | .error error => (.error error, self)
  | .ok () =>
  let result := { result with reason := result.reason.map boundedReason }
  match self.request with
  | none => (.error "memory result has no admitted request", self)
  | some request =>
  match result.validateFor request with
  | .error error => (.error error, self)
  | .ok () =>
  match self.result with
  | none => (.ok (), { self with result := some result })
  | some previous =>
    if previous.terminal ∧ previous ≠ result then
      (.error "terminal memory result cannot be replaced", self)
    else if result.observedUnixMillis < previous.observedUnixMillis then
      (.error "memory result observation moved backwards", self)
    else (.ok (), { self with result := some result })

/-! ## What an admission can do -/

/-- The journal holds no unresolved request. -/
def Settled (journal : MemoryRequestJournal) : Prop :=
  ∀ request, journal.request = some request →
    ∃ result, journal.result = some result ∧ result.terminal = true

/-- `request` was issued strictly after everything the journal has admitted. -/
def Ahead (journal : MemoryRequestJournal) (request : MemoryRequest) : Prop :=
  ∀ previous, journal.request = some previous →
    previous.issuedUnixMillis < request.issuedUnixMillis ∧
      (request.identity.sessionId = previous.identity.sessionId →
        previous.identity.sequence < request.identity.sequence)

theorem adopt_ok {self : MemoryRequestJournal} {request : MemoryRequest} {vm service : String}
    {now tolerance : Nat} {admission : RequestAdmission} {journal : MemoryRequestJournal}
    (h : self.adopt request vm service now tolerance = (.ok admission, journal)) :
    admission = .new ∧ journal = { request := some request, result := none } ∧
      request.validateAt vm service now tolerance = .ok () := by
  unfold adopt at h
  cases hv : request.validateAt vm service now tolerance with
  | error error => rw [hv] at h; cases h
  | ok _ => rw [hv] at h; cases h; exact ⟨rfl, rfl, rfl⟩

theorem adopt_error {self : MemoryRequestJournal} {request : MemoryRequest} {vm service : String}
    {now tolerance : Nat} {error : String} {journal : MemoryRequestJournal}
    (h : self.adopt request vm service now tolerance = (.error error, journal)) :
    journal = self := by
  unfold adopt at h
  cases hv : request.validateAt vm service now tolerance with
  | error error => rw [hv] at h; cases h; rfl
  | ok _ => rw [hv] at h; cases h

/-- **Everything an admission can do.** It refuses and leaves the journal alone, it recognises the
request the journal already holds, or it replaces a settled record by a valid request issued after
it. -/
theorem admit_cases {self : MemoryRequestJournal} {request : MemoryRequest} {vm service : String}
    {now tolerance : Nat} {answer : Except String RequestAdmission} {journal : MemoryRequestJournal}
    (h : self.admitRequest request vm service now tolerance = (answer, journal)) :
    (∃ error, answer = .error error ∧ journal = self) ∨
    (answer = .ok .replay ∧ journal = self ∧ self.request = some request) ∨
    (answer = .ok .new ∧ journal = { request := some request, result := none } ∧
      request.validateAt vm service now tolerance = .ok () ∧ self.Settled ∧ self.Ahead request) := by
  -- A request is adopted into an empty journal or behind a settled record.
  have hadopt : ∀ (hsettled : self.Settled) (hahead : self.Ahead request),
      self.adopt request vm service now tolerance = (answer, journal) →
      (∃ error, answer = .error error ∧ journal = self) ∨
      (answer = .ok .replay ∧ journal = self ∧ self.request = some request) ∨
      (answer = .ok .new ∧ journal = { request := some request, result := none } ∧
        request.validateAt vm service now tolerance = .ok () ∧ self.Settled ∧
        self.Ahead request) := by
    intro hsettled hahead h
    cases answer with
    | error error => exact .inl ⟨error, rfl, adopt_error h⟩
    | ok admission =>
        obtain ⟨rfl, hjournal, hvalid⟩ := adopt_ok h
        exact .inr (.inr ⟨rfl, hjournal, hvalid, hsettled, hahead⟩)
  unfold admitRequest at h
  split at h
  · cases h; exact .inl ⟨_, rfl, rfl⟩
  split at h
  · cases h; exact .inl ⟨_, rfl, rfl⟩
  split at h
  · cases h; exact .inl ⟨_, rfl, rfl⟩
  split at h
  · next hnone =>
      exact hadopt (by intro _ h; simp [hnone] at h) (by intro _ h; simp [hnone] at h) h
  next previous hprevious =>
  split at h
  · cases h; exact .inl ⟨_, rfl, rfl⟩
  split at h
  · split at h
    · cases h; exact .inl ⟨_, rfl, rfl⟩
    next hsame =>
      cases h
      exact .inr (.inl ⟨rfl, rfl, by rw [hprevious, not_not.mp hsame]⟩)
  split at h
  · cases h; exact .inl ⟨_, rfl, rfl⟩
  next hresult =>
  split at h
  · cases h; exact .inl ⟨_, rfl, rfl⟩
  next hmark =>
    refine hadopt ?_ ?_ h
    · intro _ _
      cases hr : self.result with
      | none => simp [hr] at hresult
      | some result => exact ⟨result, rfl, by simpa [hr] using hresult⟩
    · intro other hother
      rw [hprevious] at hother
      cases hother
      simp only [not_or, not_le, not_and] at hmark
      exact hmark

/-- What the journal becomes when a request is admitted as new. -/
theorem admit_new {self : MemoryRequestJournal} {request : MemoryRequest} {vm service : String}
    {now tolerance : Nat} {journal : MemoryRequestJournal}
    (h : self.admitRequest request vm service now tolerance = (.ok .new, journal)) :
    journal = { request := some request, result := none } ∧
      request.validateAt vm service now tolerance = .ok () ∧ self.Settled ∧ self.Ahead request := by
  obtain ⟨_, h, _⟩ | ⟨h, _⟩ | ⟨_, h⟩ := admit_cases h
  · cases h
  · cases h
  · exact h

theorem admit_replay {self : MemoryRequestJournal} {request : MemoryRequest} {vm service : String}
    {now tolerance : Nat} {journal : MemoryRequestJournal}
    (h : self.admitRequest request vm service now tolerance = (.ok .replay, journal)) :
    journal = self ∧ self.request = some request := by
  obtain ⟨_, h, _⟩ | ⟨_, h⟩ | ⟨h, _⟩ := admit_cases h
  · cases h
  · exact h
  · cases h

/-- Admission never takes a request out but for the one it admits. -/
theorem admit_request {self : MemoryRequestJournal} {request other : MemoryRequest}
    {vm service : String} {now tolerance : Nat}
    (h : (self.admitRequest request vm service now tolerance).2.request = some other) :
    self.request = some other ∨ other = request := by
  cases hadmitted : self.admitRequest request vm service now tolerance with
  | mk answer journal =>
      rw [hadmitted] at h
      rcases admit_cases hadmitted with ⟨_, -, rfl⟩ | ⟨-, rfl, -⟩ | ⟨-, rfl, -⟩
      · exact .inl h
      · exact .inl h
      · exact .inr (Option.some.inj h).symm

/-! ## What an admission can say -/

/-- The refusal of a request that the watermark has passed. -/
def predates : String := "memory request predates the retained replay watermark"

/-- The refusal of another request under an identity that was used. -/
def reused : String := "request identity was reused with different content"

/-- The other texts an admission can refuse with. -/
def refusals : List String :=
  MemoryRequest.refusals ++ MemoryResult.refusals ++
    ["request journal has a result without an admission", "foreign request journal",
      "an earlier request is unresolved, including across producer sessions"]

theorem validate_refusal {self : MemoryRequestJournal} {error : String}
    (h : self.validate = .error error) : error ∈ refusals := by
  unfold validate at h
  split at h
  · cases h
  · split at h
    · next hvalidate =>
        cases h
        exact List.mem_append_left _ (List.mem_append_left _ (MemoryRequest.validate_refusal hvalidate))
    · split at h
      · cases h
      · exact List.mem_append_left _ (MemoryResult.validateFor_refusal h)
  · cases h
    simp [refusals]

theorem adopt_refusal {self : MemoryRequestJournal} {request : MemoryRequest}
    {vm service error : String} {now tolerance : Nat}
    (h : (self.adopt request vm service now tolerance).1 = .error error) : error ∈ refusals := by
  unfold adopt at h
  split at h
  · next hvalidate =>
      cases h
      exact List.mem_append_left _ (List.mem_append_left _
        (MemoryRequest.validateAt_refusal hvalidate))
  · cases h

/-- **Why an admission refuses.** Only a journalled request under the same identity can make an
identity reused, and only one that is not before it can make a request predate the watermark. -/
theorem admit_refusal {self : MemoryRequestJournal} {request : MemoryRequest}
    {vm service error : String} {now tolerance : Nat}
    (h : (self.admitRequest request vm service now tolerance).1 = .error error) :
    error ∈ refusals ∨
    (error = reused ∧ ∃ previous, self.request = some previous ∧
      previous.identity = request.identity ∧ previous ≠ request) ∨
    (error = predates ∧ ∃ previous, self.request = some previous ∧ previous ≠ request ∧
      (request.issuedUnixMillis ≤ previous.issuedUnixMillis ∨
        request.identity.sessionId = previous.identity.sessionId ∧
          request.identity.sequence ≤ previous.identity.sequence)) := by
  unfold admitRequest at h
  split at h
  · next hvalidate => cases h; exact .inl (validate_refusal hvalidate)
  split at h
  · next hvalidate =>
      cases h
      exact .inl (List.mem_append_left _ (List.mem_append_left _
        (MemoryRequest.validate_refusal hvalidate)))
  split at h
  · cases h; exact .inl (by simp [refusals, MemoryRequest.refusals])
  split at h
  · exact .inl (adopt_refusal h)
  next previous hprevious =>
  split at h
  · cases h; exact .inl (by simp [refusals])
  split at h
  · next hidentity =>
      split at h
      · next hdifferent => cases h; exact .inr (.inl ⟨rfl, previous, hprevious, hidentity, hdifferent⟩)
      · cases h
  next hidentity =>
  split at h
  · cases h; exact .inl (by simp [refusals])
  split at h
  · next hmark =>
      cases h
      exact .inr (.inr ⟨rfl, previous, hprevious, fun heq => hidentity (by rw [heq]), hmark⟩)
  · exact .inl (adopt_refusal h)

/-! ## What a result can do -/

/-- **Everything a result can do.** It is refused and leaves the journal alone, or it is the result
of the journalled request, with its reason bounded, and replaces an earlier one only if that was not
terminal or was the same. -/
theorem recordResult_cases {self : MemoryRequestJournal} {result : MemoryResult}
    {answer : Except String Unit} {journal : MemoryRequestJournal}
    (h : self.recordResult result = (answer, journal)) :
    (∃ error, answer = .error error ∧ journal = self) ∨
    (answer = .ok () ∧ self.request = some result.request ∧
      journal = { self with
        result := some { result with reason := result.reason.map boundedReason } } ∧
      ({ result with reason := result.reason.map boundedReason } : MemoryResult).validateFor
        result.request = .ok () ∧
      ∀ previous, self.result = some previous →
        (previous.terminal = true →
          previous = { result with reason := result.reason.map boundedReason }) ∧
        previous.observedUnixMillis ≤ result.observedUnixMillis) := by
  unfold recordResult at h
  split at h
  · cases h; exact .inl ⟨_, rfl, rfl⟩
  dsimp only at h
  split at h
  · cases h; exact .inl ⟨_, rfl, rfl⟩
  next request hrequest =>
  split at h
  · cases h; exact .inl ⟨_, rfl, rfl⟩
  next hvalid =>
  -- The check found the request of the result to be the journalled one.
  have hsame := (MemoryResult.validateFor_eq_ok.mp hvalid).2.1
  dsimp only at hsame
  subst hsame
  split at h
  · next hnone =>
      cases h
      exact .inr ⟨rfl, hrequest, rfl, hvalid, fun previous h => by simp [hnone] at h⟩
  next previous hprevious =>
  split at h
  · cases h; exact .inl ⟨_, rfl, rfl⟩
  next hterminal =>
  split at h
  · cases h; exact .inl ⟨_, rfl, rfl⟩
  next htime =>
    cases h
    refine .inr ⟨rfl, hrequest, rfl, hvalid, ?_⟩
    intro other hother
    rw [hprevious] at hother
    cases hother
    exact ⟨fun hterm => by simpa [hterm] using hterminal, not_lt.mp htime⟩

/-- A result never changes which request is admitted. -/
theorem recordResult_request {self : MemoryRequestJournal} {result : MemoryResult} :
    (self.recordResult result).2.request = self.request := by
  cases hrecord : self.recordResult result with
  | mk answer journal =>
      rcases recordResult_cases hrecord with ⟨_, -, rfl⟩ | ⟨-, -, rfl, -⟩ <;> rfl

theorem recordResult_ok {self : MemoryRequestJournal} {result : MemoryResult}
    {journal : MemoryRequestJournal} (h : self.recordResult result = (.ok (), journal)) :
    self.request = some result.request ∧
      journal = { self with
        result := some { result with reason := result.reason.map boundedReason } } ∧
      ({ result with reason := result.reason.map boundedReason } : MemoryResult).validateFor
        result.request = .ok () ∧
      ∀ previous, self.result = some previous →
        (previous.terminal = true →
          previous = { result with reason := result.reason.map boundedReason }) ∧
        previous.observedUnixMillis ≤ result.observedUnixMillis := by
  obtain ⟨_, h, _⟩ | ⟨_, h⟩ := recordResult_cases h
  · cases h
  · exact h

/-! ## Valid journals -/

/-- What `validate` has checked, as facts. -/
structure Valid (journal : MemoryRequestJournal) : Prop where
  request : ∀ request, journal.request = some request → request.Valid
  result : ∀ result, journal.result = some result → ∃ request, journal.request = some request ∧
    result.validateFor request = .ok ()

theorem validate_eq_ok {self : MemoryRequestJournal} : self.validate = .ok () ↔ self.Valid := by
  obtain ⟨request, result⟩ := self
  unfold validate
  constructor
  · intro h
    match request, result with
    | none, none => exact ⟨by simp, by simp⟩
    | none, some result => simp at h
    | some request, none =>
        cases hrequest : request.validate with
        | error error => simp [hrequest] at h
        | ok _ => exact ⟨by simpa using MemoryRequest.validate_eq_ok.mp hrequest, by simp⟩
    | some request, some result =>
        cases hrequest : request.validate with
        | error error => simp [hrequest] at h
        | ok _ =>
            simp only [hrequest] at h
            exact ⟨by simpa using MemoryRequest.validate_eq_ok.mp hrequest, by simpa using h⟩
  · intro h
    match request, result with
    | none, none => rfl
    | none, some result =>
        obtain ⟨request, hrequest, -⟩ := h.result result rfl
        cases hrequest
    | some request, none => simp [MemoryRequest.validate_eq_ok.mpr (h.request request rfl)]
    | some request, some result =>
        obtain ⟨other, hother, hresult⟩ := h.result result rfl
        cases hother
        simp [MemoryRequest.validate_eq_ok.mpr (h.request request rfl), hresult]

theorem Valid.recorded {self journal : MemoryRequestJournal} {result : MemoryResult}
    (h : self.Valid) (hok : self.recordResult result = (.ok (), journal)) : journal.Valid := by
  obtain ⟨hrequest, rfl, hvalid, -⟩ := recordResult_ok hok
  refine ⟨h.request, ?_⟩
  rintro _ ⟨⟩
  exact ⟨result.request, hrequest, hvalid⟩

theorem valid_admitted {request : MemoryRequest} (h : request.Valid) :
    ({ request := some request, result := none } : MemoryRequestJournal).Valid :=
  ⟨by rintro _ ⟨⟩; exact h, by rintro _ ⟨⟩⟩

/-- **When a result is taken.** It is for the admitted request and agrees with itself, and replaces at
most an unresolved one that is not newer. -/
theorem recordResult_isOk {self : MemoryRequestJournal} {result : MemoryResult} (h : self.Valid)
    (hrequest : self.request = some result.request) (hobserved : result.observedUnixMillis ≠ 0)
    (hactual : result.actualBytes ≤ result.request.bytes)
    (hagrees : result.outcomeAgrees result.request = true)
    (hprevious : ∀ previous, self.result = some previous →
      previous.terminal = false ∧ previous.observedUnixMillis ≤ result.observedUnixMillis) :
    (self.recordResult result).1 = .ok () := by
  unfold recordResult
  rw [validate_eq_ok.mpr h, hrequest]
  dsimp only
  rw [MemoryResult.validateFor_bounded (h.request _ hrequest) hobserved hactual hagrees]
  dsimp only
  split
  · rfl
  next previous hsome =>
    obtain ⟨hterminal, hle⟩ := hprevious previous hsome
    rw [if_neg (by simp [hterminal]), if_neg (not_lt.mpr hle)]

/-- **An admission can be repeated.** A request that was new is new again whenever it is valid at the
time. -/
theorem admit_again {self journal : MemoryRequestJournal} {request : MemoryRequest}
    {vm service : String} {now tolerance now' tolerance' : Nat}
    (h : self.admitRequest request vm service now tolerance = (.ok .new, journal))
    (hvalid : request.validateAt vm service now' tolerance' = .ok ()) :
    self.admitRequest request vm service now' tolerance' = (.ok .new, journal) := by
  have hadopt : self.adopt request vm service now tolerance = (.ok .new, journal) →
      self.adopt request vm service now' tolerance' = (.ok .new, journal) := by
    intro h
    obtain ⟨-, rfl, -⟩ := adopt_ok h
    simp [adopt, hvalid]
  unfold admitRequest at h ⊢
  split at h
  · cases h
  split at h
  · cases h
  split at h
  · cases h
  next hforeign =>
  rw [if_neg hforeign]
  split at h
  · exact hadopt h
  split at h
  · cases h
  next hjournal =>
  rw [if_neg hjournal]
  split at h
  · split at h <;> cases h
  next hidentity =>
  rw [if_neg hidentity]
  split at h
  · cases h
  next hresolved =>
  rw [if_neg hresolved]
  split at h
  · cases h
  next hmark =>
  rw [if_neg hmark]
  exact hadopt h

end MemoryRequestJournal

end VirtioMem.Core
