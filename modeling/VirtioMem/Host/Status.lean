import VirtioMem.Host.Recorded
import VirtioMem.Host.Devices

/-!
# The status report

`status` joins the checkpoint with one fresh reading of the device and what the guest has published.
It never writes. Before the report is shown it is checked as a whole, and that check states again,
with limits of its own, what the control loop has established about intent, journal and latch.

Two of these limits are narrower than what the loop lets through. The report puts the latch reason
behind nineteen bytes of its own and holds the result to the length the reason alone was cut to; and
it bounds a device alias that the settings do not bound (`status_reportable_iff`).
-/

namespace VirtioMem.Host

open VirtioMem.Core VirtioMem.Effect VirtioMem.Text VirtioMem.Word VirtioMem.Result

/-! ## Names -/

/-- A device alias as the settings accept it. -/
def validAlias (deviceAlias : String) : Bool :=
  !deviceAlias.isEmpty && deviceAlias.toList.all fun c => c.isAlphanum || "_.-".toList.contains c

/-- Lower-case ASCII identities name a settings file. -/
def vmFilename (name : String) : Except String String :=
  if name.isEmpty || name.utf8ByteSize > 64 ||
      !(name.toList.all fun c => c.isLower || c.isDigit || c == '-' || c == '_') ||
      !(name.toList.head?.any Char.isAlphanum) then
    .error ("vm_name must be 1..=64 lower-case ASCII letters, digits, '-' or '_', " ++
      "starting with a letter or digit")
  else .ok (name ++ "_settings.toml")

/-! ## The snapshot -/

def controllerStatusVersion : Nat := 5

inductive ControlHealth where
  | converged
  | growing
  | shrinking
  | recoveryRequired
  | latched
  deriving DecidableEq, Repr

inductive RecoveryState where
  | notRequired
  | reviewRequired
  deriving DecidableEq, Repr

structure ControllerCommandStatus where
  operationId : String
  direction : CommandDirection
  priorRequestedBytes : Nat
  priorCurrentBytes : Nat
  targetBytes : Nat
  deriving DecidableEq, Repr

/-- The guest's publication as one read found it, or why it is unusable. -/
structure GuestInputStatus where
  error : Option String
  observedUnixMillis : Option Nat
  request : Option MemoryRequest
  deriving DecidableEq, Repr

structure ControllerStatusSnapshot where
  version : Nat
  observedUnixMillis : Nat
  vmName : String
  deviceAlias : String
  deviceSizeBytes : Nat
  blockSizeBytes : Nat
  maximumTargetBytes : Nat
  requestedBytes : Nat
  currentBytes : Nat
  observeOnly : Bool
  guestInput : GuestInputStatus
  /-- The durably admitted request and its result, if any. -/
  admittedRequest : Option MemoryRequest
  result : Option MemoryResult
  commandOwnership : CommandOwnership
  command : Option ControllerCommandStatus
  controlHealth : ControlHealth
  actuationLatched : Bool
  latchReason : Option String
  recoveryState : RecoveryState
  recoveryReason : Option String
  lastLatchClearReason : Option String
  compatibilityFingerprint : String
  deriving DecidableEq, Repr

inductive ControllerStatusError where
  | unsupportedVersion (version : Nat)
  | invalid (reason : String)
  deriving DecidableEq, Repr

def ControllerStatusError.toString : ControllerStatusError → String
  | unsupportedVersion version => s!"controller status version is unsupported: {version}"
  | invalid reason => s!"controller status is invalid: {reason}"

/-! ## Its check -/

/-- Return this error where something is wrong. -/
def rejectIf (wrong : Bool) (error : ControllerStatusError) : Except ControllerStatusError Unit :=
  if wrong then .error error else .ok ()

def validateIdentity (value : String) : Except ControllerStatusError Unit :=
  rejectIf (unreadable maxIdentityBytes value)
    (.invalid "identity is empty, oversized, or contains control characters")

def isHexDigit (c : Char) : Bool :=
  c.isDigit || ('a' ≤ c && c ≤ 'f') || ('A' ≤ c && c ≤ 'F')

/-- A SHA-256 digest in hexadecimal. -/
def isSha256 (value : String) : Bool :=
  value.utf8ByteSize == 64 && value.toList.all isHexDigit

def validateSha256 (value : String) : Except ControllerStatusError Unit :=
  rejectIf (!isSha256 value) (.invalid "fingerprint is not hexadecimal SHA-256")

def validateOptionalReason (value : Option String) : Except ControllerStatusError Unit :=
  rejectIf (value.any (unreadable maxReasonBytes))
    (.invalid "reason is empty, oversized, or contains control characters")

/-- Whether a report of this ownership shows the command. -/
def CommandOwnership.commandRequired : CommandOwnership → Bool
  | ownedPending | ownedConvergedUnresolved | recordedNotApplied | conflict => true
  | none | unownedPending => false

namespace ControllerStatusSnapshot

def device (self : ControllerStatusSnapshot) : VirtioMemState where
  sizeBytes := self.deviceSizeBytes
  blockSizeBytes := self.blockSizeBytes
  requestedBytes := self.requestedBytes
  currentBytes := self.currentBytes

/-- The admitted request and its result belong together. -/
def validateJournal (self : ControllerStatusSnapshot) : Except ControllerStatusError Unit :=
  match self.admittedRequest, self.result with
  | none, some _ => .error (.invalid "result has no admitted request")
  | none, none => .ok ()
  | some request, some result =>
    match result.validateFor request with
    | .error _ => .error (.invalid "result does not match the admitted request")
    | .ok () => rejectIf (!request.validate.isOk) (.invalid "admitted request is invalid")
  | some request, none =>
    rejectIf (!request.validate.isOk) (.invalid "admitted request is invalid")

def validateCommand (self : ControllerStatusSnapshot) : Except ControllerStatusError Unit :=
  match self.command with
  | none => .ok ()
  | some command => do
    validateIdentity command.operationId
    rejectIf (command.targetBytes % self.blockSizeBytes != 0) (.invalid "command target is invalid")

def validate (self : ControllerStatusSnapshot) : Except ControllerStatusError Unit := do
  rejectIf (self.version != controllerStatusVersion) (.unsupportedVersion self.version)
  validateIdentity self.vmName
  validateIdentity self.deviceAlias
  validateSha256 self.compatibilityFingerprint
  self.device.validate.mapError fun _ => .invalid "live device state is invalid"
  rejectIf (self.maximumTargetBytes != self.device.maximumTargetBytes)
    (.invalid "maximum target contradicts the device geometry")
  validateOptionalReason self.guestInput.error
  rejectIf (self.guestInput.error.isSome == self.guestInput.observedUnixMillis.isSome ||
      (self.guestInput.request.isSome && self.guestInput.observedUnixMillis.isNone))
    (.invalid "guest input must be either observed or explained")
  self.validateJournal
  rejectIf (self.commandOwnership.commandRequired != self.command.isSome)
    (.invalid "command ownership and command detail disagree")
  rejectIf (self.commandOwnership == .none && self.requestedBytes != self.currentBytes)
    (.invalid "converged ownership contains divergent live state")
  rejectIf (self.commandOwnership == .unownedPending && self.requestedBytes == self.currentBytes)
    (.invalid "unowned pending status is already converged")
  self.validateCommand
  validateOptionalReason self.latchReason
  validateOptionalReason self.recoveryReason
  validateOptionalReason self.lastLatchClearReason
  rejectIf (self.actuationLatched != self.latchReason.isSome)
    (.invalid "latch state and reason disagree")
  rejectIf ((self.recoveryState == .reviewRequired) != self.recoveryReason.isSome)
    (.invalid "recovery state and reason disagree")

end ControllerStatusSnapshot

/-! ## The report -/

/-- Why somebody has to look at the VM. -/
def recoveryReason (control : DurableControlState) (attestationChanged : Bool)
    (ownership : CommandOwnership) : Option String :=
  match control.latchReason with
  | some reason => some s!"actuation_latched: {reason}"
  | none =>
    if attestationChanged && control.pending then
      some "compatibility attestation changed while control state is pending"
    else
      match ownership with
      | .none | .ownedPending => none
      | .ownedConvergedUnresolved =>
        some "recorded command has converged but its durable intent remains unresolved"
      | .unownedPending => some "live requested/current divergence has no durable command owner"
      | .recordedNotApplied => some "recorded command is not reflected in live state"
      | .conflict => some "live state conflicts with the durable command intent"

def controlHealth (control : DurableControlState) (ownership : CommandOwnership)
    (recovery : Option String) : ControlHealth :=
  if control.latched then .latched
  else if recovery.isSome then .recoveryRequired
  else if ownership = .ownedPending then
    match control.intent.map CommandIntent.direction with
    | some .grow | some .settleGrow => .growing
    | _ => .shrinking
  else .converged

def CommandIntent.status (self : CommandIntent) : ControllerCommandStatus where
  operationId := self.operationId
  direction := self.direction
  priorRequestedBytes := self.priorRequestedBytes
  priorCurrentBytes := self.priorCurrentBytes
  targetBytes := self.targetBytes

/-- What the report says about a file that was loaded. -/
def snapshotOf (config : HostConfig) (live : VirtioMemState) (guestInput : GuestInputStatus)
    (fingerprint : String) (observedUnixMillis : Nat) (file : Option CheckpointFile) :
    ControllerStatusSnapshot :=
  let control := controlOf file
  let attestationChanged := file.any fun file => file.compatibilityFingerprint != fingerprint
  let ownership := commandOwnership control.intent live
  let recovery := recoveryReason control attestationChanged ownership
  { version := controllerStatusVersion
    observedUnixMillis := observedUnixMillis
    vmName := config.vmName
    deviceAlias := config.deviceAlias
    deviceSizeBytes := live.sizeBytes
    blockSizeBytes := live.blockSizeBytes
    maximumTargetBytes := live.maximumTargetBytes
    requestedBytes := live.requestedBytes
    currentBytes := live.currentBytes
    observeOnly := config.observeOnly
    guestInput := guestInput
    admittedRequest := control.journal.request
    result := control.journal.result
    commandOwnership := ownership
    command := control.intent.map CommandIntent.status
    controlHealth := controlHealth control ownership recovery
    actuationLatched := control.latchReason.isSome
    latchReason := control.latchReason
    recoveryState := if recovery.isSome then .reviewRequired else .notRequired
    recoveryReason := recovery
    lastLatchClearReason := file.bind CheckpointFile.lastLatchClearReason
    compatibilityFingerprint := fingerprint }

/-- Join the checkpoint with one live reading and the guest's input. -/
def readControllerStatus (config : HostConfig) (live : VirtioMemState)
    (guestInput : GuestInputStatus) (fingerprint : String) (observedUnixMillis : Nat)
    (file : Option CheckpointFile) : Except String ControllerStatusSnapshot :=
  match live.validate with
  | .error error => .error error.toString
  | .ok () =>
    match load file config.vmName config.deviceAlias with
    | .error error => .error error
    | .ok file =>
      let snapshot := snapshotOf config live guestInput fingerprint observedUnixMillis file
      match snapshot.validate with
      | .error error => .error error.toString
      | .ok () => .ok snapshot

/-! ## What the check establishes -/

@[simp] theorem rejectIf_eq_ok {wrong : Bool} {error : ControllerStatusError} :
    rejectIf wrong error = .ok () ↔ wrong = false := by
  cases wrong <;> simp [rejectIf]

/-- One check after the other. -/
theorem checks_eq_ok {first second : Except ControllerStatusError Unit} :
    (do first; second) = .ok () ↔ first = .ok () ∧ second = .ok () := by
  rw [bind_eq_ok]
  exact ⟨fun ⟨(), h⟩ => h, fun h => ⟨(), h⟩⟩

@[simp] theorem validateIdentity_eq_ok {value : String} :
    validateIdentity value = .ok () ↔ unreadable maxIdentityBytes value = false :=
  rejectIf_eq_ok

@[simp] theorem validateSha256_eq_ok {value : String} :
    validateSha256 value = .ok () ↔ isSha256 value = true := by
  simp [validateSha256]

@[simp] theorem validateOptionalReason_eq_ok {value : Option String} :
    validateOptionalReason value = .ok () ↔
      ∀ reason, value = some reason → unreadable maxReasonBytes reason = false := by
  cases value <;> simp [validateOptionalReason]

namespace ControllerStatusSnapshot

theorem validateJournal_eq_ok {self : ControllerStatusSnapshot} :
    self.validateJournal = .ok () ↔
      MemoryRequestJournal.Valid ⟨self.admittedRequest, self.result⟩ := by
  rw [← MemoryRequestJournal.validate_eq_ok]
  unfold validateJournal MemoryRequestJournal.validate
  cases self.admittedRequest with
  | none => cases self.result <;> simp
  | some request =>
      cases hrequest : request.validate <;> cases self.result with
      | none => simp [hrequest, Except.isOk, Except.toBool]
      | some result =>
          cases hresult : result.validateFor request <;>
            simp [hrequest, hresult, Except.isOk, Except.toBool]

theorem validateCommand_eq_ok {self : ControllerStatusSnapshot} :
    self.validateCommand = .ok () ↔ ∀ command, self.command = some command →
      unreadable maxIdentityBytes command.operationId = false ∧
        self.blockSizeBytes ∣ command.targetBytes := by
  unfold validateCommand
  cases self.command with
  | none => simp
  | some command => simp [checks_eq_ok, Nat.dvd_iff_mod_eq_zero]

/-- What `validate` has checked, as facts. -/
structure Valid (snapshot : ControllerStatusSnapshot) : Prop where
  version : snapshot.version = controllerStatusVersion
  vmName : unreadable maxIdentityBytes snapshot.vmName = false
  deviceAlias : unreadable maxIdentityBytes snapshot.deviceAlias = false
  fingerprint : isSha256 snapshot.compatibilityFingerprint = true
  device : snapshot.device.Valid
  maximum : snapshot.maximumTargetBytes = snapshot.device.maximumTargetBytes
  explanation : ∀ reason, snapshot.guestInput.error = some reason →
    unreadable maxReasonBytes reason = false
  explained : snapshot.guestInput.error.isSome ≠ snapshot.guestInput.observedUnixMillis.isSome
  observed : snapshot.guestInput.request.isSome → snapshot.guestInput.observedUnixMillis.isSome
  journal : MemoryRequestJournal.Valid ⟨snapshot.admittedRequest, snapshot.result⟩
  detailed : snapshot.commandOwnership.commandRequired = snapshot.command.isSome
  converged : snapshot.commandOwnership = .none → snapshot.requestedBytes = snapshot.currentBytes
  unowned : snapshot.commandOwnership = .unownedPending → snapshot.requestedBytes ≠ snapshot.currentBytes
  command : ∀ command, snapshot.command = some command →
    unreadable maxIdentityBytes command.operationId = false ∧
      snapshot.blockSizeBytes ∣ command.targetBytes
  latchReason : ∀ reason, snapshot.latchReason = some reason → unreadable maxReasonBytes reason = false
  recoveryReason : ∀ reason, snapshot.recoveryReason = some reason →
    unreadable maxReasonBytes reason = false
  clearReason : ∀ reason, snapshot.lastLatchClearReason = some reason →
    unreadable maxReasonBytes reason = false
  latched : snapshot.actuationLatched = snapshot.latchReason.isSome
  recovery : (snapshot.recoveryState == .reviewRequired) = snapshot.recoveryReason.isSome

theorem validate_eq_ok {self : ControllerStatusSnapshot} : self.validate = .ok () ↔ self.Valid := by
  simp only [validate, checks_eq_ok, rejectIf_eq_ok, validateIdentity_eq_ok, validateSha256_eq_ok,
    validateOptionalReason_eq_ok, mapError_eq_ok, validateCommand_eq_ok, validateJournal_eq_ok,
    VirtioMemState.validate_eq_ok]
  constructor
  · rintro ⟨hversion, hname, halias, hfingerprint, hdevice, hmaximum, hexplanation, hguest, hjournal,
      hdetailed, hconverged, hunowned, hcommand, hlatch, hreason, hclear, hlatched, hrecovery⟩
    simp only [Bool.or_eq_false_iff, Bool.and_eq_false_iff] at hguest
    exact {
      version := by simpa using hversion
      vmName := hname
      deviceAlias := halias
      fingerprint := hfingerprint
      device := hdevice
      maximum := by simpa using hmaximum
      explanation := hexplanation
      explained := by simpa using hguest.1
      observed := by
        intro hrequest
        simpa [hrequest] using hguest.2
      journal := hjournal
      detailed := by simpa using hdetailed
      converged := by
        intro hnone
        simpa [hnone] using hconverged
      unowned := by
        intro hpending
        simpa [hpending] using hunowned
      command := hcommand
      latchReason := hlatch
      recoveryReason := hreason
      clearReason := hclear
      latched := by simpa using hlatched
      recovery := by simpa using hrecovery }
  · intro h
    refine ⟨by simp [h.version], h.vmName, h.deviceAlias, h.fingerprint, h.device,
      by simp [h.maximum], h.explanation, ?_, h.journal, by simp [h.detailed], ?_, ?_, h.command,
      h.latchReason, h.recoveryReason, h.clearReason, by simp [h.latched], by simp [h.recovery]⟩
    · have hexplained := h.explained
      have hobserved := h.observed
      cases hrequest : self.guestInput.request <;> simp_all
    · by_cases hnone : self.commandOwnership = .none
      · simp [h.converged hnone]
      · simp [hnone]
    · by_cases hpending : self.commandOwnership = .unownedPending
      · simp [h.unowned hpending]
      · simp [hpending]

end ControllerStatusSnapshot

/-! ## When the report can be made -/

/-- A guest input that is either observed, with an optional valid request, or explained. -/
inductive GuestInputStatus.Usable : GuestInputStatus → Prop
  | observed (observedUnixMillis : Nat) (request : Option MemoryRequest)
      (hvalid : ∀ found, request = some found → found.Valid) :
      Usable ⟨none, some observedUnixMillis, request⟩
  | explained (reason : String) (hreadable : unreadable maxReasonBytes reason = false) :
      Usable ⟨some reason, none, none⟩

variable {config : HostConfig} {live : VirtioMemState} {guestInput : GuestInputStatus}
  {fingerprint : String} {now : Nat} {file : Option CheckpointFile}

theorem vmFilename_readable {name filename : String} (h : vmFilename name = .ok filename) :
    unreadable maxIdentityBytes name = false := by
  unfold vmFilename at h
  split at h
  · cases h
  next hname =>
  simp only [Bool.or_eq_true, not_or, Bool.not_eq_true, Bool.not_eq_false',
    decide_eq_false_iff_not, not_lt] at hname
  obtain ⟨⟨⟨hempty, hsize⟩, hchars⟩, -⟩ := hname
  refine (readable_graphic_iff ?_ (by simpa using hempty)).mpr (hsize.trans (by decide))
  intro c hc
  have hchar := List.all_eq_true.mp hchars c hc
  simp only [Bool.or_eq_true, beq_iff_eq] at hchar
  rcases hchar with ((hlower | hdigit) | rfl) | rfl
  · exact isGraphic_alphanum (isAlphanum_iff.mpr (.inl (.inr hlower)))
  · exact isGraphic_alphanum (isAlphanum_iff.mpr (.inr hdigit))
  · decide
  · decide

/-- An alias that the settings accept is unreadable only where it is too long. -/
theorem validAlias_readable {deviceAlias : String} (h : validAlias deviceAlias = true) :
    unreadable maxIdentityBytes deviceAlias = false ↔
      deviceAlias.utf8ByteSize ≤ maxIdentityBytes := by
  simp only [validAlias, Bool.and_eq_true] at h
  refine readable_graphic_iff ?_ (by simpa using h.1)
  intro c hc
  have hchar := List.all_eq_true.mp h.2 c hc
  simp only [Bool.or_eq_true] at hchar
  rcases hchar with halphanum | hmark
  · exact isGraphic_alphanum halphanum
  · have hmarks : "_.-".toList.all isGraphic = true := by decide
    exact List.all_eq_true.mp hmarks c (by simpa using hmark)

/-- What the report puts before a latch reason costs it nineteen bytes. -/
theorem latchReport_readable {reason : String} (h : unreadable maxReasonBytes reason = false) :
    unreadable maxReasonBytes s!"actuation_latched: {reason}" = false ↔
      reason.utf8ByteSize ≤ 1005 := by
  simp only [unreadable, Bool.or_eq_false_iff] at h
  refine (unreadable_append (by decide) (by decide) h.2).trans ?_
  have hlead : "actuation_latched: ".utf8ByteSize = 19 := by decide
  show "actuation_latched: ".utf8ByteSize + _ ≤ maxReasonBytes ↔ _
  rw [hlead, maxReasonBytes]
  omega

/-- The ownership shows a command exactly where there is an intent. -/
theorem commandRequired_commandOwnership (intent : Option CommandIntent) :
    (commandOwnership intent live).commandRequired = intent.isSome := by
  cases intent with
  | none =>
      unfold commandOwnership
      split_ifs <;> rfl
  | some intent =>
      simp only [commandOwnership]
      split_ifs <;> rfl

theorem commandOwnership_none {intent : Option CommandIntent}
    (h : commandOwnership intent live = .none) : live.requestedBytes = live.currentBytes := by
  unfold commandOwnership at h
  split at h
  · split at h
    · assumption
    · cases h
  · split_ifs at h

theorem commandOwnership_unownedPending {intent : Option CommandIntent}
    (h : commandOwnership intent live = .unownedPending) :
    live.requestedBytes ≠ live.currentBytes := by
  unfold commandOwnership at h
  split at h
  · split at h
    · cases h
    · assumption
  · split_ifs at h

theorem reviewRequired_iff (recovery : Option String) :
    ((if recovery.isSome then RecoveryState.reviewRequired else .notRequired) ==
      .reviewRequired) = recovery.isSome := by
  cases recovery <;> rfl

/-- Only a latch makes the recovery reason long. -/
theorem recoveryReason_readable {control : DurableControlState} {attestationChanged : Bool}
    {ownership : CommandOwnership} :
    (∀ text, recoveryReason control attestationChanged ownership = some text →
        unreadable maxReasonBytes text = false) ↔
      ∀ reason, control.latchReason = some reason →
        unreadable maxReasonBytes s!"actuation_latched: {reason}" = false := by
  unfold recoveryReason
  cases hlatch : control.latchReason with
  | some reason => simp
  | none =>
      simp only [reduceCtorEq, false_imp_iff, implies_true, iff_true]
      intro text htext
      split at htext
      · cases htext
        decide
      · split at htext <;> cases htext <;> decide

/-- **What the check of a report comes to.** Its other parts hold of every report made of a file that
could be written. -/
theorem snapshotOf_valid (hlive : live.Valid) (hguest : guestInput.Usable)
    (hfingerprint : isSha256 fingerprint = true)
    (hname : unreadable maxIdentityBytes config.vmName = false)
    (hdurable : ∀ found, file = some found → Durable config found)
    (haligned : ∀ intent, (controlOf file).intent = some intent →
      live.blockSizeBytes ∣ intent.targetBytes) :
    (snapshotOf config live guestInput fingerprint now file).Valid ↔
      unreadable maxIdentityBytes config.deviceAlias = false ∧
        ∀ reason, (controlOf file).latchReason = some reason →
          unreadable maxReasonBytes s!"actuation_latched: {reason}" = false := by
  have hreportable := reportable_controlOf hdurable
  constructor
  · intro h
    exact ⟨h.deviceAlias, recoveryReason_readable.mp h.recoveryReason⟩
  · rintro ⟨halias, hlatched⟩
    -- The other parts were checked before: the device as it was read, the file as it was written.
    exact {
      version := rfl
      vmName := hname
      deviceAlias := halias
      fingerprint := hfingerprint
      device := hlive
      maximum := rfl
      explanation := by
        show ∀ reason, guestInput.error = some reason → _
        intro reason hreason
        cases hguest with
        | observed => cases hreason
        | explained _ hreadable =>
            cases hreason
            exact hreadable
      explained := by
        show guestInput.error.isSome ≠ guestInput.observedUnixMillis.isSome
        cases hguest <;> simp
      observed := by
        show guestInput.request.isSome → guestInput.observedUnixMillis.isSome
        cases hguest <;> simp
      journal := hreportable.journal
      detailed := by
        show (commandOwnership (controlOf file).intent live).commandRequired =
          ((controlOf file).intent.map CommandIntent.status).isSome
        rw [commandRequired_commandOwnership, Option.isSome_map]
      converged := commandOwnership_none
      unowned := commandOwnership_unownedPending
      command := by
        intro command hcommand
        obtain ⟨intent, hintent, rfl⟩ := Option.map_eq_some_iff.mp hcommand
        exact ⟨hreportable.operation intent hintent, haligned intent hintent⟩
      latchReason := hreportable.latched
      recoveryReason := recoveryReason_readable.mpr hlatched
      clearReason := by
        intro reason hreason
        obtain ⟨found, hfound, hreason⟩ := Option.bind_eq_some_iff.mp hreason
        exact (hdurable found hfound).cleared reason hreason
      latched := rfl
      recovery := reviewRequired_iff _ }

/-- What was written is loaded. -/
theorem load_durable (hdurable : ∀ found, file = some found → Durable config found) :
    load file config.vmName config.deviceAlias = .ok file := by
  cases file with
  | none => rfl
  | some found => exact (hdurable found rfl).load

theorem readControllerStatus_isOk (hlive : live.Valid)
    (hdurable : ∀ found, file = some found → Durable config found) :
    (∃ snapshot, readControllerStatus config live guestInput fingerprint now file = .ok snapshot) ↔
      (snapshotOf config live guestInput fingerprint now file).Valid := by
  unfold readControllerStatus
  rw [VirtioMemState.validate_eq_ok.mpr hlive, load_durable hdurable]
  rw [← ControllerStatusSnapshot.validate_eq_ok]
  dsimp only
  cases (snapshotOf config live guestInput fingerprint now file).validate <;> simp

/-- **Of a file that was written only two texts can be too long for the report.** -/
theorem OnFile.status_isOk {w : VmWorld} {block : Nat} {filename : String}
    (h : OnFile config w block) (hname : vmFilename config.vmName = .ok filename)
    (halias : validAlias config.deviceAlias = true) (hlive : live.Valid)
    (hblock : w.control.intent.isSome → live.blockSizeBytes = block)
    (hguest : guestInput.Usable) (hfingerprint : isSha256 fingerprint = true) :
    (∃ snapshot, readControllerStatus config live guestInput fingerprint now w.disk =
        .ok snapshot) ↔
      config.deviceAlias.utf8ByteSize ≤ maxIdentityBytes ∧
        ∀ reason, w.control.latchReason = some reason → reason.utf8ByteSize ≤ 1005 := by
  have haligned : ∀ intent, w.control.intent = some intent →
      live.blockSizeBytes ∣ intent.targetBytes := by
    intro intent hintent
    rw [hblock (Option.isSome_of_mem hintent)]
    exact h.aligned intent hintent
  rw [readControllerStatus_isOk hlive h.durable,
    snapshotOf_valid hlive hguest hfingerprint (vmFilename_readable hname) h.durable haligned]
  have hlatched := (reportable_controlOf h.durable).latched
  refine and_congr (validAlias_readable halias) (forall₂_congr fun reason hreason => ?_)
  exact latchReport_readable (hlatched reason hreason)

variable {pool : Option Nat} {configs : List HostConfig} {labels : List Label}
  {process : Option HostRuntime} {index : Nat}

/-- **When a status can be reported.** In every run of daemons and clearings, on a valid device with
the block size of the recorded command, the report succeeds exactly where the alias and the latch reason
are short enough for it. -/
theorem status_reportable_iff (h : HostRun pool configs labels process) (hranged : Ranged labels)
    (hconfig : configs[index]? = some config) {filename : String}
    (hname : vmFilename config.vmName = .ok filename)
    (halias : validAlias config.deviceAlias = true) (hlive : live.Valid)
    (hblock : (HostWorld.after .initial labels index).control.intent.isSome →
      live.blockSizeBytes = recordedBlock index .initial 0 labels)
    (hguest : guestInput.Usable) (hfingerprint : isSha256 fingerprint = true) :
    (∃ snapshot, readControllerStatus config live guestInput fingerprint now
        (HostWorld.after .initial labels index).disk = .ok snapshot) ↔
      config.deviceAlias.utf8ByteSize ≤ maxIdentityBytes ∧
        ∀ reason, (HostWorld.after .initial labels index).control.latchReason = some reason →
          reason.utf8ByteSize ≤ 1005 :=
  ((hostRun_recorded h hranged).1 index config hconfig).status_isOk hname halias hlive hblock hguest
    hfingerprint

/-! ## A cause that fills the report -/

/-- An event as far as `Ranged` looks at it. -/
def Label.ranged : Label → Bool
  | .event ⟨.vm _ .memoryState, .ok state⟩ => state.sizeBytes ≤ maximum
  | _ => true

theorem ranged_of_all (h : labels.all Label.ranged = true) : Ranged labels :=
  fun _ _ hmem => of_decide_eq_true (List.all_eq_true.mp h _ hmem)

/-- The daemon of the example VM after it was granted an addition. -/
def grantedScript : Script := exampleScript (examplePublication (6 * 2 ^ 30) exampleAdd)

def grantedDevices : Devices := fun _ => exampleDevice (2 ^ 31) (2 ^ 31)

/-- The intent it has recorded. -/
def grantedIntent : CommandIntent where
  operationId := "1-1"
  startedUnixMillis := 100000
  direction := .grow
  priorRequestedBytes := 2 ^ 31
  priorCurrentBytes := 2 ^ 31
  targetBytes := 3 * 2 ^ 30

def grantedRuntime : HostRuntime :=
  (Script.rounds [grantedScript] exampleRuntime grantedDevices).2.1

def grantedLabels : List Label :=
  .started :: (Script.rounds [grantedScript] exampleRuntime grantedDevices).1

theorem granted_run : HostRun none [exampleConfig] grantedLabels (some grantedRuntime) :=
  (Script.playable_run exampleRuntime_run (by decide +kernel :
    Script.playable [grantedScript] exampleRuntime grantedDevices = true)).1

theorem granted_ranged : grantedLabels.all Label.ranged = true := by decide +kernel

/-- While the addition is under way the status of that VM is reported. -/
theorem granted_reportable : ∃ snapshot, readControllerStatus exampleConfig
    (exampleDevice (3 * 2 ^ 30) (2 ^ 31)) ⟨some "unreachable", none, none⟩
    (String.ofList (List.replicate 64 'a')) 300000
    (HostWorld.after .initial grantedLabels 0).disk = .ok snapshot := by
  have hshort : ∀ reason,
      (HostWorld.after .initial grantedLabels 0).control.latchReason = some reason →
        reason.utf8ByteSize ≤ 1005 := by
    have hnone : (HostWorld.after .initial grantedLabels 0).control.latchReason = none := by
      decide +kernel
    intro reason hreason
    rw [hnone] at hreason
    cases hreason
  have hname : vmFilename exampleConfig.vmName = .ok "guest_settings.toml" := by decide +kernel
  exact (status_reportable_iff granted_run (ranged_of_all granted_ranged)
    (rfl : [exampleConfig][0]? = some exampleConfig) hname (by decide +kernel)
    (VirtioMemState.validate_eq_ok.mp (by decide +kernel)) (by decide +kernel)
    (.explained _ (by decide +kernel)) (by decide +kernel)).mpr ⟨by decide +kernel, hshort⟩

/-- What a latch says when the device cannot be read. -/
def lostReason (cause : String) : String :=
  boundedReason s!"live state unavailable during an owned operation: {cause}"

theorem lostReason_size {n : Nat} (hlong : maxReasonBytes < n) :
    1005 < (lostReason (String.ofList (List.replicate n 'x'))).utf8ByteSize := by
  have hword : List.replicate n 'x' ∈ words (fun c => isControl c || isWhitespace c)
      ("live state unavailable during an owned operation: " ++
        String.ofList (List.replicate n 'x')).toList := by
    have htext : ("live state unavailable during an owned operation: " ++
        String.ofList (List.replicate n 'x')).toList =
        "live state unavailable during an owned operation:".toList ++
          ' ' :: List.replicate n 'x' := by
      have hlead : "live state unavailable during an owned operation: ".toList =
          "live state unavailable during an owned operation:".toList ++ [' '] := by decide
      rw [String.toList_append, hlead, List.append_assoc, @String.toList_ofList (List.replicate n 'x'),
        List.singleton_append]
    rw [htext]
    apply mem_words_append (by decide)
    · intro c hc
      rw [List.eq_of_mem_replicate hc]
      decide
    · intro hnil
      have hlength := congrArg List.length hnil
      rw [List.length_replicate, List.length_nil] at hlength
      omega
  have hsize : (String.ofList (List.replicate n 'x')).utf8ByteSize = n := by
    rw [size_ofList, List.map_replicate, List.sum_replicate_nat]
    exact Nat.mul_one n
  have hbounded := MemoryResult.boundedReason_long hword (hlong.trans_eq hsize.symm)
  rw [maxReasonBytes] at hbounded
  have hsome : ∀ size, 1024 < size + 4 → 1005 < size := by omega
  exact hsome _ hbounded

theorem recordResult_runs {vm : VmController} {result : MemoryResult}
    {journal : MemoryRequestJournal}
    (h : vm.control.journal.recordResult result = (.ok (), journal)) :
    VmController.recordResult result vm =
      .pure (.ok (), { vm with control := { vm.control with journal := journal } }) := by
  show controllerError (vm.control.journal.recordResult result).1 { vm with
    control := { vm.control with journal := (vm.control.journal.recordResult result).2 } } = _
  rw [h]
  rfl

theorem pure_apply {α : Type} (value : α) (vm : VmController) :
    (pure value : VmAction α) vm = .pure (.ok value, vm) := rfl

/-- The events of a round in which the device of the only VM cannot be read. -/
def lostEvents (checkpoint : Checkpoint) (control : DurableControlState) (cause : String)
    (now : Nat) : List (Event RuntimeAns) :=
  [⟨.stopRequested, false⟩, ⟨.vm 0 .memoryState, .error cause⟩, ⟨.vm 0 .nowUnixMillis, .ok now⟩,
    ⟨.vm 0 (.persist (checkpoint.file control)), .written⟩]

/-- **A device that is lost while a command is under way latches the VM**, and the cause becomes the
reason. -/
theorem lost_latches {vm : VmController} {pool : Option Nat} {intent : CommandIntent}
    {request : MemoryRequest} {now : Nat} {cause : String} (hrequest : request.Valid)
    (hnow : now ≠ 0) : ∃ control,
      control.latchReason = some (lostReason cause) ∧
      control.intent = some intent ∧
      (HostRuntime.round ⟨[{ vm with
          stopped := false, control := ⟨none, some intent, ⟨some request, none⟩⟩ }], pool⟩).Runs
        (lostEvents vm.checkpoint control cause now) none := by
  have hjournal : ∃ journal, MemoryRequestJournal.recordResult ⟨some request, none⟩
      ⟨request, .uncertain, 0, now, some (lostReason cause)⟩ =
      (.ok (), journal) :=
    ⟨_, Prod.ext (MemoryRequestJournal.recordResult_isOk (MemoryRequestJournal.valid_admitted hrequest)
      rfl hnow (Nat.zero_le _) rfl fun _ h => absurd h.symm (Option.some_ne_none _)) rfl⟩
  obtain ⟨journal, hjournal⟩ := hjournal
  refine ⟨⟨_, some intent, journal⟩, rfl, rfl, ?_⟩
  unfold lostEvents
  apply Prog.Runs.step
  apply Prog.Runs.step
  apply Prog.Runs.step
  simp only [Prog.bind, controllerError, Except.mapError, Action.ofExcept, pure_apply]
  rw [recordResult_runs]
  rotate_left
  · exact hjournal
  apply Prog.Runs.step
  apply Prog.Runs.cut

theorem runtime_eq {s : HostRuntime} {control : DurableControlState}
    (h : s.vms.map (fun vm => (vm.stopped, vm.control)) = [(false, control)]) :
    ∃ vm : VmController, s = ⟨[{ vm with stopped := false, control := control }], s.poolBytes⟩ := by
  obtain ⟨vms, poolBytes⟩ := s
  obtain ⟨vm, rfl, hvm⟩ := List.map_eq_singleton_iff.mp h
  obtain ⟨hstopped, hcontrol⟩ := Prod.mk.inj hvm
  refine ⟨vm, ?_⟩
  rw [← hstopped, ← hcontrol]

theorem lostEvents_after {W : HostWorld} {checkpoint : Checkpoint} {control : DurableControlState}
    {cause : String} {now : Nat} :
    (HostWorld.after W (.round :: (lostEvents checkpoint control cause now).map .event) 0).disk =
      some (checkpoint.file control) := by
  simp only [lostEvents, HostWorld.after, List.map_cons, List.map_nil, List.foldl_cons, List.foldl_nil,
    HostWorld.step, HostWorld.next, Function.update_self, VmWorld.next]
  rfl

theorem noted_same {w w' : VmWorld} {block : Nat} (h : w'.control.intent = w.control.intent) :
    noted w w' block = block :=
  if_pos h

theorem lostEvents_block {W : HostWorld} {checkpoint : Checkpoint} {control : DurableControlState}
    {cause : String} {now block : Nat} (h : control.intent = (W 0).control.intent) :
    recordedBlock 0 W block (.round :: (lostEvents checkpoint control cause now).map .event) =
      block := by
  have hread : ∀ w : VmWorld, (w.read (.error cause)).control = w.control := fun _ => rfl
  simp only [lostEvents, List.map_cons, List.map_nil, recordedBlock, HostWorld.step, HostWorld.next,
    Function.update_self, VmWorld.next]
  rw [noted_same rfl, noted_same (congrArg _ (hread _))]
  have hpersist : (((W 0).stale.read (.error cause)).persist (checkpoint.file control)
      .written).control.intent = ((W 0).stale.read (.error cause)).control.intent := h
  exact (noted_same hpersist).trans ((noted_same rfl).trans (noted_same rfl))

/-- A valid VM that has latched over a long cause has no status. -/
theorem long_latch_unreportable : ∃ labels, HostRun none [exampleConfig] labels none ∧
    Ranged labels ∧ vmFilename exampleConfig.vmName = .ok "guest_settings.toml" ∧
    validAlias exampleConfig.deviceAlias = true ∧ (exampleDevice (3 * 2 ^ 30) (2 ^ 31)).Valid ∧
    (exampleDevice (3 * 2 ^ 30) (2 ^ 31)).blockSizeBytes = recordedBlock 0 .initial 0 labels ∧
    GuestInputStatus.Usable ⟨some "unreachable", none, none⟩ ∧
    isSha256 (String.ofList (List.replicate 64 'a')) = true ∧
    ¬ ∃ snapshot, readControllerStatus exampleConfig (exampleDevice (3 * 2 ^ 30) (2 ^ 31))
      ⟨some "unreachable", none, none⟩ (String.ofList (List.replicate 64 'a')) 300000
      (HostWorld.after .initial labels 0).disk = .ok snapshot := by
  have hcontrol : grantedRuntime.vms.map (fun vm => (vm.stopped, vm.control)) =
      [(false, ⟨none, some grantedIntent, ⟨some exampleAdd, none⟩⟩)] := by decide +kernel
  obtain ⟨vm, hvm⟩ := runtime_eq hcontrol
  obtain ⟨control, hlatched, hintent, hruns⟩ := @lost_latches vm grantedRuntime.poolBytes
    grantedIntent exampleAdd 200000 (String.ofList (List.replicate 1100 'x'))
    (MemoryRequest.validate_eq_ok.mp (by decide)) (by decide)
  rw [← hvm] at hruns
  have hrun := granted_run.exit hruns
  have hranged : Ranged (grantedLabels ++ .round ::
      (lostEvents vm.checkpoint control (String.ofList (List.replicate 1100 'x')) 200000).map
        .event) := by
    apply ranged_of_all
    rw [List.all_append, granted_ranged]
    rfl
  have hbefore : control.intent = (HostWorld.after .initial grantedLabels 0).control.intent := by
    rw [hintent]
    decide +kernel
  have hblock : (exampleDevice (3 * 2 ^ 30) (2 ^ 31)).blockSizeBytes = recordedBlock 0 .initial 0
      (grantedLabels ++ .round ::
        (lostEvents vm.checkpoint control (String.ofList (List.replicate 1100 'x')) 200000).map
          .event) := by
    rw [recordedBlock_append, lostEvents_block hbefore]
    decide +kernel
  have hvalid : (exampleDevice (3 * 2 ^ 30) (2 ^ 31)).Valid :=
    VirtioMemState.validate_eq_ok.mp (by decide +kernel)
  have hguest : GuestInputStatus.Usable ⟨some "unreachable", none, none⟩ :=
    .explained _ (by decide +kernel)
  have hname : vmFilename exampleConfig.vmName = .ok "guest_settings.toml" := by decide +kernel
  refine ⟨_, hrun, hranged, hname, by decide +kernel, hvalid, hblock, hguest, by decide +kernel, ?_⟩
  intro hreported
  have hfile := (hostRun_recorded hrun hranged).1 0 exampleConfig rfl
  -- A status would need a latch reason that fits.
  obtain ⟨-, hshort⟩ := (hfile.status_isOk hname (by decide +kernel) hvalid (fun _ => hblock) hguest
    (by decide +kernel)).mp hreported
  have hlatch : (HostWorld.after .initial (grantedLabels ++ .round ::
      (lostEvents vm.checkpoint control (String.ofList (List.replicate 1100 'x')) 200000).map
        .event) 0).control.latchReason = some (lostReason (String.ofList (List.replicate 1100 'x'))) := by
    rw [HostWorld.after_append, VmWorld.control, lostEvents_after]
    exact hlatched
  exact absurd (hshort _ hlatch) (not_le.mpr (lostReason_size (by decide)))

end VirtioMem.Host
