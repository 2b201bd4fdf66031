import VirtioMem.Core.Device
import VirtioMem.Lib.Text

/-!
# Requests, results and the host status

The vocabulary of the guest/host channel. A guest asks for one delta at a time and names it by an
identity; the host answers with a result for that very request, inside a status that also carries the
device geometry.

A request and a result each have a `validate`; both are pure checks on the value, with the texts of
the source. The facts they establish are collected in the last section, so that nothing later has to
unfold them.
-/

namespace VirtioMem.Core

open VirtioMem.Word VirtioMem.Text

def memoryRequestVersion : Nat := 1

/-- Admission freshness. -/
def maxRequestLifetimeMillis : Nat := 60000

/-- Non-empty printable ASCII of at most 128 bytes. -/
def validIdentity (value : String) : Bool :=
  !isBlank value && value.utf8ByteSize ≤ 128 && isAscii value && !hasControl value

structure RequestIdentity where
  vmName : String
  serviceName : String
  sessionId : String
  sequence : Nat
  deriving DecidableEq, Repr

inductive MemoryOperation where
  | add
  | remove
  deriving DecidableEq, Repr

structure MemoryRequest where
  version : Nat
  identity : RequestIdentity
  operation : MemoryOperation
  bytes : Nat
  issuedUnixMillis : Nat
  expiresUnixMillis : Nat
  deriving DecidableEq, Repr

namespace MemoryRequest

def validate (self : MemoryRequest) : Except String Unit :=
  if self.version ≠ memoryRequestVersion then .error "unsupported memory request version"
  else if !([self.identity.vmName, self.identity.serviceName, self.identity.sessionId].all
      validIdentity) then
    .error "invalid memory request identity"
  else if self.bytes = 0 ∨ self.issuedUnixMillis = 0 ∨
      self.expiresUnixMillis ≤ self.issuedUnixMillis ∨
      self.expiresUnixMillis - self.issuedUnixMillis > maxRequestLifetimeMillis then
    .error "memory request needs a positive delta and a bounded validity interval"
  else .ok ()

/-- The check made again at the effect boundary. -/
def validateAt (self : MemoryRequest) (vm service : String) (now futureToleranceMillis : Nat) :
    Except String Unit :=
  match self.validate with
  | .error error => .error error
  | .ok () =>
    if self.identity.vmName ≠ vm ∨ self.identity.serviceName ≠ service then
      .error "foreign memory request"
    else if self.issuedUnixMillis > saturatingAdd now futureToleranceMillis ∨
        now ≥ self.expiresUnixMillis then
      .error "memory request is expired or from the future"
    else .ok ()

end MemoryRequest

inductive MemoryOutcome where
  | completed
  | partialMove
  | poolEmpty
  | rejected
  /-- The command may have taken effect; not a resolution. -/
  | uncertain
  deriving DecidableEq, Repr

/-- Longest accepted result or latch reason, in bytes. -/
def maxReasonBytes : Nat := 1024

/-- Free text made a valid reason: words joined by single spaces, cut on a character boundary, never
empty. -/
def boundedReason (text : String) : String :=
  let joined := [' '].intercalate (words (fun c => isControl c || isWhitespace c) text.toList)
  let reason := takeBytes maxReasonBytes joined
  if reason = [] then "unspecified" else String.ofList reason

structure MemoryResult where
  request : MemoryRequest
  outcome : MemoryOutcome
  actualBytes : Nat
  observedUnixMillis : Nat
  reason : Option String
  deriving DecidableEq, Repr

namespace MemoryResult

/-- A refusal before any device command. -/
def rejected (request : MemoryRequest) (observedUnixMillis : Nat) (reason : String) :
    MemoryResult where
  request := request
  outcome := .rejected
  actualBytes := 0
  observedUnixMillis := observedUnixMillis
  reason := some reason

/-- Whether the outcome agrees with the bytes and the reason. -/
def outcomeAgrees (self : MemoryResult) (request : MemoryRequest) : Bool :=
  match self.outcome with
  | .completed => self.actualBytes == request.bytes
  | .partialMove => self.actualBytes < request.bytes
  | .poolEmpty => request.operation == .add && self.actualBytes == 0
  | .rejected => self.actualBytes == 0 && self.reason.isSome
  | .uncertain => self.reason.isSome

def invalidReason (reason : String) : Bool :=
  reason.isEmpty || reason.utf8ByteSize > maxReasonBytes || hasControl reason

def validateFor (self : MemoryResult) (request : MemoryRequest) : Except String Unit :=
  match self.request.validate with
  | .error error => .error error
  | .ok () =>
    if self.request ≠ request then .error "memory result does not match the retained request"
    else if self.observedUnixMillis = 0 ∨ self.actualBytes > request.bytes then
      .error "memory result has invalid observation/actual bytes"
    else if self.reason.any invalidReason then .error "invalid memory result reason"
    else if !self.outcomeAgrees request then
      .error "memory result outcome contradicts actual bytes"
    else .ok ()

/-- Everything but `uncertain` resolves the request. -/
def terminal (self : MemoryResult) : Bool := self.outcome != .uncertain

end MemoryResult

/-- What the host writes beside the guest's publication. -/
structure HostMemoryStatus where
  version : Nat
  vmName : String
  serviceName : String
  deviceAlias : String
  observedUnixMillis : Nat
  deviceSizeBytes : Nat
  blockSizeBytes : Nat
  requestedBytes : Nat
  currentBytes : Nat
  result : Option MemoryResult
  deriving DecidableEq, Repr

namespace HostMemoryStatus

def device (self : HostMemoryStatus) : VirtioMemState where
  sizeBytes := self.deviceSizeBytes
  blockSizeBytes := self.blockSizeBytes
  requestedBytes := self.requestedBytes
  currentBytes := self.currentBytes

/-- Identity and internal consistency, independent of age. -/
def validateFor (self : HostMemoryStatus) (vm service : String) : Except String Unit :=
  if self.version ≠ memoryRequestVersion ∨ self.vmName ≠ vm ∨ self.serviceName ≠ service then
    .error "foreign or unsupported host memory status"
  else if self.observedUnixMillis = 0 then .error "host memory status has no observation time"
  else
    match self.device.validate with
    | .error error => .error error.toString
    | .ok () =>
      match self.result with
      | none => .ok ()
      | some result =>
        match result.validateFor result.request with
        | .error error => .error error
        | .ok () =>
          if result.request.identity.vmName ≠ vm ∨ result.request.identity.serviceName ≠ service ∨
              result.observedUnixMillis > self.observedUnixMillis then
            .error "host memory result identity/time contradicts status"
          else .ok ()

/-- Age is bounded in both directions. -/
def freshAt (self : HostMemoryStatus) (now maxAgeMillis : Nat) : Bool :=
  absDiff self.observedUnixMillis now ≤ maxAgeMillis

end HostMemoryStatus

/-! ## What the checks establish -/

namespace MemoryRequest

/-- What `validate` has checked, as facts. -/
structure Valid (request : MemoryRequest) : Prop where
  version : request.version = memoryRequestVersion
  identity : [request.identity.vmName, request.identity.serviceName,
    request.identity.sessionId].all validIdentity = true
  bytes_pos : 0 < request.bytes
  issued_pos : 0 < request.issuedUnixMillis
  issued_lt : request.issuedUnixMillis < request.expiresUnixMillis
  lifetime : request.expiresUnixMillis - request.issuedUnixMillis ≤ maxRequestLifetimeMillis

/-- The texts a request can be refused with. -/
def refusals : List String :=
  ["unsupported memory request version", "invalid memory request identity",
    "memory request needs a positive delta and a bounded validity interval",
    "foreign memory request", "memory request is expired or from the future"]

theorem validate_refusal {self : MemoryRequest} {error : String}
    (h : self.validate = .error error) : error ∈ refusals := by
  unfold validate at h
  split_ifs at h <;> cases h <;> simp [refusals]

theorem validateAt_refusal {self : MemoryRequest} {vm service error : String} {now tolerance : Nat}
    (h : self.validateAt vm service now tolerance = .error error) : error ∈ refusals := by
  unfold validateAt at h
  split at h
  · next hvalidate => cases h; exact validate_refusal hvalidate
  · split_ifs at h <;> cases h <;> simp [refusals]

theorem validate_eq_ok {self : MemoryRequest} : self.validate = .ok () ↔ self.Valid := by
  unfold validate
  constructor
  · intro h
    split_ifs at h with hversion hidentity hbounds
    simp only [not_or, not_le, not_lt] at hbounds
    exact ⟨not_not.mp hversion, by simpa using hidentity, Nat.pos_of_ne_zero hbounds.1,
      Nat.pos_of_ne_zero hbounds.2.1, hbounds.2.2.1, hbounds.2.2.2⟩
  · rintro ⟨hversion, hidentity, hbytes, hissued, hlt, hlife⟩
    rw [if_neg (not_not.mpr hversion), if_neg (by simp [hidentity]), if_neg (by omega)]

/-- What the check at the effect boundary adds: the request is addressed to this VM and service, and
neither expired nor from the future. -/
theorem validateAt_eq_ok {self : MemoryRequest} {vm service : String} {now tolerance : Nat} :
    self.validateAt vm service now tolerance = .ok () ↔
      self.Valid ∧ self.identity.vmName = vm ∧ self.identity.serviceName = service ∧
        self.issuedUnixMillis ≤ saturatingAdd now tolerance ∧ now < self.expiresUnixMillis := by
  unfold validateAt
  rw [← validate_eq_ok]
  cases h : self.validate with
  | error error => simp
  | ok _ =>
      simp only [true_and]
      split_ifs with hforeign htime
      · simp only [false_iff, not_and]
        intro hvm hservice
        exact absurd hforeign (by simp [hvm, hservice])
      · simp only [false_iff, not_and]
        intro _ _ _
        omega
      · simp only [not_or, not_not] at hforeign
        simp only [true_iff]
        exact ⟨hforeign.1, hforeign.2, by omega⟩

end MemoryRequest

namespace MemoryResult

/-- The texts a result can be refused with, besides those of its request. -/
def refusals : List String :=
  ["memory result does not match the retained request",
    "memory result has invalid observation/actual bytes", "invalid memory result reason",
    "memory result outcome contradicts actual bytes"]

theorem validateFor_refusal {self : MemoryResult} {request : MemoryRequest} {error : String}
    (h : self.validateFor request = .error error) :
    error ∈ MemoryRequest.refusals ++ refusals := by
  unfold validateFor at h
  split at h
  · next hvalidate =>
      cases h
      exact List.mem_append_left _ (MemoryRequest.validate_refusal hvalidate)
  · split_ifs at h <;> cases h <;> simp [refusals]

theorem validateFor_eq_ok {self : MemoryResult} {request : MemoryRequest} :
    self.validateFor request = .ok () ↔
      request.Valid ∧ self.request = request ∧ self.observedUnixMillis ≠ 0 ∧
        self.actualBytes ≤ request.bytes ∧ self.reason.any invalidReason = false ∧
        self.outcomeAgrees request = true := by
  unfold validateFor
  by_cases hrequest : self.request = request
  · subst hrequest
    rw [← MemoryRequest.validate_eq_ok]
    cases h : self.request.validate with
    | error error => simp
    | ok _ =>
        simp only [ne_eq, not_true_eq_false, if_false, true_and]
        split_ifs with hbytes hreason hagrees
        · simp only [false_iff, not_and]
          intro _ _
          omega
        · simp [hreason]
        · simp [show self.outcomeAgrees self.request = false by simpa using hagrees]
        · simp only [not_or] at hbytes
          simp only [true_iff]
          exact ⟨hbytes.1, by omega, by simpa using hreason, by simpa using hagrees⟩
  · cases h : self.request.validate <;> simp [hrequest]

/-- **Every bounded text is a valid reason.** -/
theorem boundedReason_valid (text : String) : invalidReason (boundedReason text) = false := by
  unfold boundedReason
  dsimp only
  split
  · decide
  next hreason =>
  have hprintable : ∀ c ∈ takeBytes maxReasonBytes ([' '].intercalate
      (words (fun c => isControl c || isWhitespace c) text.toList)), isControl c = false := by
    intro c hc
    rcases mem_intercalate ((takeBytes_isPrefix _ _).subset hc) with hc | ⟨word, hword, hc⟩
    · rw [List.mem_singleton.mp hc]
      decide
    · exact (Bool.or_eq_false_iff.mp (not_separator_of_mem_words hword c hc)).1
  simp only [invalidReason, Bool.or_eq_false_iff, decide_eq_false_iff_not, not_lt,
    hasControl, String.toList_ofList]
  refine ⟨⟨?_, size_takeBytes _ _⟩, by simpa using hprintable⟩
  simpa using hreason

/-- **Every bounded text can be reported.** -/
theorem boundedReason_readable (text : String) :
    unreadable maxReasonBytes (boundedReason text) = false := by
  have hvalid := boundedReason_valid text
  simp only [invalidReason, Bool.or_eq_false_iff] at hvalid
  simp only [unreadable, hvalid.1.2, hvalid.2, Bool.or_false]
  unfold boundedReason
  dsimp only
  split
  · decide
  next hreason =>
  -- It begins as the first word does.
  obtain ⟨c, cs, hcut⟩ := List.exists_cons_of_ne_nil hreason
  obtain ⟨rest, hjoined⟩ := takeBytes_isPrefix maxReasonBytes ([' '].intercalate
    (words (fun c => isControl c || isWhitespace c) text.toList))
  rw [hcut, List.cons_append] at hjoined
  obtain ⟨word, hword, hc⟩ := head_intercalate
    (fun word hword => by simpa using (List.mem_filter.mp hword).2) hjoined.symm
  have hblank := (Bool.or_eq_false_iff.mp (not_separator_of_mem_words hword c hc)).2
  rw [isBlank, String.toList_ofList, hcut, List.all_cons, hblank, Bool.false_and]

/-- A long word makes a long reason. -/
theorem boundedReason_long {text : String} {word : List Char}
    (hword : word ∈ words (fun c => isControl c || isWhitespace c) text.toList)
    (hlong : maxReasonBytes < (String.ofList word).utf8ByteSize) :
    maxReasonBytes < (boundedReason text).utf8ByteSize + 4 := by
  have hjoined := size_takeBytes_of_long
    (hlong.trans_le (size_le_of_sublist (@sublist_intercalate [' '] _ _ hword)))
  unfold boundedReason
  dsimp only
  split
  · next hempty =>
    rw [hempty] at hjoined
    exact absurd hjoined (by decide)
  · exact hjoined

/-- A result whose outcome agrees with its bytes is valid once its reason is bounded. -/
theorem validateFor_bounded {result : MemoryResult} (hvalid : result.request.Valid)
    (hobserved : result.observedUnixMillis ≠ 0) (hactual : result.actualBytes ≤ result.request.bytes)
    (hagrees : result.outcomeAgrees result.request = true) :
    ({ result with reason := result.reason.map boundedReason } : MemoryResult).validateFor
      result.request = .ok () := by
  refine validateFor_eq_ok.mpr ⟨hvalid, rfl, hobserved, hactual, ?_, ?_⟩
  · cases hreason : result.reason with
    | none => rfl
    | some reason => exact boundedReason_valid reason
  · cases result with
    | mk request outcome actual observed reason =>
        cases outcome <;> simpa [outcomeAgrees] using hagrees

end MemoryResult

end VirtioMem.Core
