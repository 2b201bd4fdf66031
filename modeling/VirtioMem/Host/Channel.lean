import VirtioMem.Core.Request
import VirtioMem.Lib.Effect
import VirtioMem.Lib.Result
import VirtioMem.Lib.Text

/-!
# The status publication

The host writes its status into a file of the guest, through the guest agent. Every write is a round
trip that can collide with the guest's own use of the file, so `publishStatus` remembers what it last
wrote and when, and leaves the file alone unless a field has changed or a refresh is due.

Nothing about a failed write says what it did: the file may have been emptied, written in part or
written whole. The answers of the agent carry both what was reported and what is in the file by then.
How a status is encoded is left to the serialiser, the parameter `encode`.

## Main result

`publication_coherent`: after a call that returns `Ok` the file holds the status, up to its observation
time, exactly if the call wrote or no failed write has spoiled the file since the last one that
succeeded. The memory of the channel is not cleared when a write fails, so a return to the status
published before it is taken for unchanged.
-/

namespace VirtioMem.Host

open VirtioMem.Core VirtioMem.Effect VirtioMem.Text

def maxHostStatusBytes : Nat := 64 * 1024

def hostStatusPath (publicationPath : String) : String := s!"{publicationPath}.host-status"

/-- What `guest-file-open` for writing came to; it empties the file it opens. -/
inductive Opened where
  | opened (handle : Nat)
  | failed (error : String) (emptied : Bool)

/-- What `guest-file-write` came to: the count it reported and what the file holds by then. A write of
everything into an emptied file leaves just that. -/
structure Wrote (contents : List UInt8) where
  response : Except String Nat
  left : List UInt8
  honest : response = .ok contents.length → left = contents

/-- What `guest-file-close` came to. -/
inductive Closed where
  | done
  | failed (error : String) (left : List UInt8)

def Opened.report : Opened → Except String Nat
  | .opened handle => .ok handle
  | .failed error _ => .error error

def Closed.report : Closed → Except String Unit
  | .done => .ok ()
  | .failed error _ => .error error

inductive ChannelOp where
  /-- The monotonic clock, in nanoseconds. -/
  | instantNow
  | openFile (path : String)
  | writeFile (handle : Nat) (contents : List UInt8)
  | closeFile (handle : Nat)
  /-- Wake the guest's service. -/
  | notify

abbrev ChannelAns : ChannelOp → Type
  | .instantNow => Nat
  | .openFile _ => Opened
  | .writeFile _ contents => Wrote contents
  | .closeFile _ => Closed
  | .notify => Unit

structure GuestChannel where
  publicationPath : String
  /-- In nanoseconds, as the clock. -/
  maxAge : Nat
  wake : Bool
  lastStatus : Option HostMemoryStatus
  lastWrite : Option Nat

abbrev ChannelAction (α : Type) : Type := Action ChannelOp ChannelAns GuestChannel String α

namespace GuestChannel

abbrev send (op : ChannelOp) : ChannelAction (ChannelAns op) := Action.perform op

end GuestChannel

namespace GuestChannel

/-- A channel that has published nothing yet. -/
def new (publicationPath : String) (maxAge : Nat) (wake : Bool) : GuestChannel where
  publicationPath := publicationPath
  maxAge := maxAge
  wake := wake
  lastStatus := none
  lastWrite := none

/-- Whether the status says anything new. -/
def changed (self : GuestChannel) (status : HostMemoryStatus) : Bool :=
  self.lastStatus.all fun last =>
    last.requestedBytes ≠ status.requestedBytes
      || last.currentBytes ≠ status.currentBytes
      || last.result ≠ status.result
      || last.deviceSizeBytes ≠ status.deviceSizeBytes
      || last.blockSizeBytes ≠ status.blockSizeBytes

/-- Whether the last write is old enough to repeat it. -/
def refreshDueAt (self : GuestChannel) (written now : Nat) : Bool := now - written ≥ self.maxAge / 3

end GuestChannel

/-! ## Writing a guest file -/

/-- The operation's error stays the primary failure of an operation on an open handle. -/
def withHandle : Except String Unit → Except String Unit → Except String Unit
  | .ok (), .ok () => .ok ()
  | .error error, .ok () => .error error
  | .ok (), .error closeError => .error closeError
  | .error error, .error closeError =>
      .error s!"{error}; additionally failed to close QGA handle: {closeError}"

/-- Whether everything was written. -/
def checkCount (contents : List UInt8) : Except String Nat → Except String Unit
  | .error error => .error error
  | .ok count =>
    if count ≠ contents.length then
      .error s!"guest-file-write wrote {count} of {contents.length} bytes"
    else .ok ()

open GuestChannel in
/-- Replace a guest file's contents. The agent cannot rename, so readers may see them in part. -/
def writeGuestFile (path : String) (contents : List UInt8) : ChannelAction Unit := do
  Action.ofExcept (if isBlank path then .error "QGA guest file path must not be empty" else .ok ())
  let opened ← send (.openFile path)
  let handle ← Action.ofExcept opened.report
  let wrote ← send (.writeFile handle contents)
  let closed ← send (.closeFile handle)
  Action.ofExcept (withHandle (checkCount contents wrote.response) closed.report)

namespace GuestChannel

/-- Whether a refresh is due; a channel that has not written yet does not ask the clock. -/
def refreshDue : ChannelAction Bool := do
  let self ← get
  match self.lastWrite with
  | none => return true
  | some written => return self.refreshDueAt written (← send .instantNow)

/-- What a write that succeeded leaves behind. -/
def remember (status : HostMemoryStatus) (changed : Bool) : ChannelAction Unit := do
  let now ← send .instantNow
  modify fun self => { self with lastWrite := some now }
  if changed then
    let self ← get
    if self.wake then send .notify
    modify fun self => { self with lastStatus := some status }

/-- Write the status, with its line end. -/
def writeStatus (encode : HostMemoryStatus → Except String (List UInt8)) (status : HostMemoryStatus) :
    ChannelAction Unit := do
  let self ← get
  let bytes ← Action.ofExcept ((encode status).mapError ("encode host memory status: " ++ ·))
  let bytes := bytes ++ [10]
  Action.ofExcept (if bytes.length > maxHostStatusBytes then
    .error "host memory status exceeds its byte limit" else .ok ())
  writeGuestFile (hostStatusPath self.publicationPath) bytes
  remember status (self.changed status)

/-- Write only a semantic change, or a refresh before the guest would consider the last status
stale. -/
def publishStatus (encode : HostMemoryStatus → Except String (List UInt8))
    (status : HostMemoryStatus) : ChannelAction Unit := do
  let self ← get
  let refreshDue ← refreshDue
  if !self.changed status && !refreshDue then return ()
  else writeStatus encode status

end GuestChannel

/-! ## The file -/

/-- The guest's file during a call, and whether the call has begun to write it. -/
structure GuestFile where
  contents : List UInt8
  opened : Bool

/-- The file as the agent's answers leave it. -/
def guestFile : Monitor GuestFile ChannelOp ChannelAns where
  may _ _ := True
  next
    | _, .openFile _, .opened _ => ⟨[], true⟩
    | file, .openFile _, .failed _ emptied => ⟨if emptied then [] else file.contents, true⟩
    | file, .writeFile _ _, wrote => { file with contents := wrote.left }
    | file, .closeFile _, .done => file
    | file, .closeFile _, .failed _ left => { file with contents := left }
    | file, .instantNow, _ | file, .notify, _ => file

/-- The file holds this status, complete, except that it may have been observed at another time. -/
def Published (encode : HostMemoryStatus → Except String (List UInt8)) (contents : List UInt8)
    (status : HostMemoryStatus) : Prop :=
  ∃ observed bytes, encode { status with observedUnixMillis := observed } = .ok bytes ∧
    contents = bytes ++ [10]

/-- What never changes between the statuses of one device. -/
def identityOf (status : HostMemoryStatus) : Nat × String × String × String :=
  (status.version, status.vmName, status.serviceName, status.deviceAlias)

/-- A channel together with the file it writes. -/
structure Publication where
  channel : GuestChannel
  contents : List UInt8
  /-- The last write that was begun was reported as failed. -/
  failed : Bool

def isError : Except String Unit → Bool
  | .ok () => false
  | .error _ => true

namespace Publication

/-- What a finished call leaves. -/
def next (p : Publication) (events : List (Event ChannelAns)) (result : Except String Unit)
    (channel : GuestChannel) : Publication :=
  let file := guestFile.after ⟨p.contents, false⟩ events
  { channel := channel
    contents := file.contents
    failed := if file.opened then isError result else p.failed }

/-- A failed write has left something other than the status last published. -/
def Spoiled (encode : HostMemoryStatus → Except String (List UInt8)) (p : Publication) : Prop :=
  p.failed = true ∧ ∀ last, p.channel.lastStatus = some last → ¬ Published encode p.contents last

/-- Reached from a new channel, whatever the file held, by calls with statuses of one device. -/
inductive Reachable (encode : HostMemoryStatus → Except String (List UInt8))
    (identity : Nat × String × String × String) : Publication → Prop
  | new (path : String) (maxAge : Nat) (wake : Bool) (contents : List UInt8) :
      Reachable encode identity ⟨.new path maxAge wake, contents, false⟩
  | call {p : Publication} {status : HostMemoryStatus} {events : List (Event ChannelAns)}
      {result : Except String Unit} {channel : GuestChannel} (h : Reachable encode identity p)
      (hstatus : identityOf status = identity)
      (hrun : (GuestChannel.publishStatus encode status p.channel).Runs events
        (some (result, channel))) :
      Reachable encode identity (p.next events result channel)

end Publication

/-- Whether the call finds a refresh due: it reads the clock first if the channel has written. -/
def RefreshDue (channel : GuestChannel) (events : List (Event ChannelAns)) : Prop :=
  match channel.lastWrite with
  | none => True
  | some written => ∃ now rest, events = ⟨.instantNow, now⟩ :: rest ∧
      channel.refreshDueAt written now = true

/-! ## What a call leaves -/

section Calls

variable {encode : HostMemoryStatus → Except String (List UInt8)} {status : HostMemoryStatus}
  {channel : GuestChannel} {file : GuestFile}

theorem hostStatusPath_notBlank (path : String) : isBlank (hostStatusPath path) = false := by
  have h : ¬ isWhitespace '.' = true := by decide
  simp [isBlank, hostStatusPath, String.toList_append, toString, h]

theorem checkCount_eq_ok {contents : List UInt8} {response : Except String Nat} :
    checkCount contents response = .ok () ↔ response = .ok contents.length := by
  cases response with
  | error error => exact ⟨nofun, nofun⟩
  | ok count =>
      simp only [checkCount]
      split_ifs with hcount
      · exact ⟨nofun, fun h => absurd (Except.ok.inj h) hcount⟩
      · simpa using hcount

theorem wp_writeGuestFile {path : String} {bytes : List UInt8}
    {Q : Unit → GuestChannel → GuestFile → Prop} {E : String → GuestChannel → GuestFile → Prop}
    (hpath : isBlank path = false) (hQ : Q () channel ⟨bytes, true⟩)
    (hE : ∀ error contents, E error channel ⟨contents, true⟩) :
    Action.wp guestFile (writeGuestFile path bytes) Q E channel file := by
  unfold writeGuestFile
  simp only [hpath, Bool.false_eq_true, if_false, Action.wp_bind, Action.wp_ofExcept,
    Action.wp_perform, reduceCtorEq, false_implies, implies_true, and_true]
  intro _ _
  refine ⟨trivial, fun opened => ?_⟩
  cases opened with
  | failed error emptied =>
      refine ⟨fun _ hok => ?_, fun error _ => hE error _⟩
      cases hok
  | opened handle =>
      refine ⟨fun handle _ => ⟨trivial, fun wrote => ⟨trivial, fun closed => ?_⟩⟩,
        fun _ herror => absurd herror (by simp [Opened.report])⟩
      cases closed with
      | failed error left =>
          refine ⟨fun _ hok => ?_, fun error _ => hE error left⟩
          cases hcheck : checkCount bytes wrote.response <;> rw [hcheck] at hok <;> cases hok
      | done =>
          refine ⟨fun _ hok => ?_, fun error _ => hE error wrote.left⟩
          have hcheck : checkCount bytes wrote.response = .ok () := by
            cases h : checkCount bytes wrote.response with
            | ok _ => rfl
            | error error => rw [h] at hok; cases hok
          have hleft : wrote.left = bytes := wrote.honest (checkCount_eq_ok.mp hcheck)
          show Q () channel ⟨wrote.left, true⟩
          rw [hleft]
          exact hQ

/-- How a call that writes ends. -/
def WriteEnds (encode : HostMemoryStatus → Except String (List UInt8)) (status : HostMemoryStatus)
    (channel : GuestChannel) (file : GuestFile) :
    Except String Unit → GuestChannel → GuestFile → Prop
  | .ok (), channel', file' => file'.opened = true ∧
      (∃ bytes, encode status = .ok bytes ∧ file'.contents = bytes ++ [10]) ∧
      channel'.lastStatus = if channel.changed status then some status else channel.lastStatus
  | .error _, channel', file' => channel' = channel ∧ (file'.opened = true ∨ file' = file)

theorem wp_remember {changed : Bool} {Q : Unit → GuestChannel → GuestFile → Prop}
    {E : String → GuestChannel → GuestFile → Prop}
    (h : ∀ channel', channel'.lastStatus = (if changed then some status else channel.lastStatus) →
      Q () channel' file) :
    Action.wp guestFile (GuestChannel.remember status changed) Q E channel file := by
  unfold GuestChannel.remember
  simp only [Action.wp_bind, Action.wp_perform, Action.wp_modify]
  refine ⟨trivial, fun now => ?_⟩
  cases changed with
  | false => exact h _ rfl
  | true =>
      simp only [if_true, Action.wp_bind, Action.wp_get]
      cases hwake : channel.wake with
      | false => exact h _ rfl
      | true => exact ⟨trivial, fun _ => h _ rfl⟩

theorem wp_writeStatus :
    Action.wp guestFile (GuestChannel.writeStatus encode status)
      (fun _ => WriteEnds encode status channel file (.ok ()))
      (fun error => WriteEnds encode status channel file (.error error)) channel file := by
  unfold GuestChannel.writeStatus
  simp only [Action.wp_bind, Action.wp_get, Action.wp_ofExcept]
  refine ⟨fun bytes hbytes => ⟨fun _ _ => ?_, fun _ _ => ⟨rfl, .inr rfl⟩⟩,
    fun _ _ => ⟨rfl, .inr rfl⟩⟩
  apply wp_writeGuestFile (hostStatusPath_notBlank _)
  · refine wp_remember fun channel' hlast => ⟨rfl, ⟨bytes, ?_, rfl⟩, hlast⟩
    exact Result.mapError_eq_ok.mp hbytes
  · exact fun _ _ => ⟨rfl, .inl rfl⟩

/-! The first call of a channel always writes; a later one reads the clock and may leave the file. -/

theorem publishStatus_first (hfirst : channel.lastWrite = none) :
    GuestChannel.publishStatus encode status channel =
      GuestChannel.writeStatus encode status channel := by
  show ((GuestChannel.refreshDue channel).bind _) = _
  have hdue : GuestChannel.refreshDue channel = .pure (.ok true, channel) := by
    show (match channel.lastWrite with
      | none => (pure true : ChannelAction Bool)
      | some written => do return channel.refreshDueAt written (← GuestChannel.send .instantNow))
      channel = _
    rw [hfirst]
    rfl
  rw [hdue]
  simp [Prog.bind]

theorem publishStatus_again {written : Nat} (hagain : channel.lastWrite = some written) :
    GuestChannel.publishStatus encode status channel = .perform .instantNow fun now =>
      if channel.changed status = true ∨ channel.refreshDueAt written now = true then
        GuestChannel.writeStatus encode status channel
      else .pure (.ok (), channel) := by
  show ((GuestChannel.refreshDue channel).bind _) = _
  have hdue : GuestChannel.refreshDue channel = .perform .instantNow fun now =>
      .pure (.ok (channel.refreshDueAt written now), channel) := by
    show (match channel.lastWrite with
      | none => (pure true : ChannelAction Bool)
      | some written => do return channel.refreshDueAt written (← GuestChannel.send .instantNow))
      channel = _
    rw [hagain]
    rfl
  rw [hdue]
  simp only [Prog.bind]
  congr 1
  funext now
  cases channel.changed status <;> cases channel.refreshDueAt written now <;> rfl

theorem writeStatus_ends {events : List (Event ChannelAns)} {result : Except String Unit}
    {channel' : GuestChannel}
    (hrun : (GuestChannel.writeStatus encode status channel).Runs events (some (result, channel'))) :
    WriteEnds encode status channel file result channel' (guestFile.after file events) := by
  have h := (@wp_writeStatus encode status channel file).accepts hrun
  have hends := h.2 _ rfl
  cases result <;> exact hends

/-- **One call.** It writes, or it leaves everything as it is. -/
theorem publishStatus_cases {events : List (Event ChannelAns)} {result : Except String Unit}
    {channel' : GuestChannel}
    (hrun : (GuestChannel.publishStatus encode status channel).Runs events
      (some (result, channel'))) :
    ((channel.changed status = true ∨ RefreshDue channel events) ∧
        WriteEnds encode status channel file result channel' (guestFile.after file events)) ∨
      (¬ (channel.changed status = true ∨ RefreshDue channel events) ∧
        result = .ok () ∧ channel' = channel ∧ guestFile.after file events = file) := by
  unfold RefreshDue
  cases hwritten : channel.lastWrite with
  | none =>
      rw [publishStatus_first hwritten] at hrun
      exact .inl ⟨.inr trivial, writeStatus_ends hrun⟩
  | some written =>
      rw [publishStatus_again hwritten] at hrun
      cases hrun with
      | @step _ _ now rest _ hrun =>
      have hdue : (∃ now' rest', (⟨.instantNow, now⟩ :: rest : List (Event ChannelAns)) =
          ⟨.instantNow, now'⟩ :: rest' ∧ channel.refreshDueAt written now' = true) ↔
          channel.refreshDueAt written now = true := by
        constructor
        · rintro ⟨now', rest', heq, hdue⟩
          cases heq
          exact hdue
        · exact fun h => ⟨now, rest, rfl, h⟩
      simp only [hdue]
      dsimp only at hrun
      split at hrun
      · next h =>
        -- Reading the clock leaves the file as it is.
        have hwrites : WriteEnds encode status channel file result channel'
            (guestFile.after file rest) := writeStatus_ends hrun
        exact .inl ⟨h, hwrites⟩
      · next h =>
        cases hrun
        exact .inr ⟨h, rfl, rfl, rfl⟩

/-! ## What the file holds -/

theorem Published.of_encoded {contents bytes : List UInt8} (hbytes : encode status = .ok bytes)
    (hcontents : contents = bytes ++ [10]) : Published encode contents status :=
  ⟨status.observedUnixMillis, bytes, hbytes, hcontents⟩

/-- A status that is not changed is the last one but for its observation time. -/
theorem published_unchanged {contents : List UInt8} (hchanged : channel.changed status = false)
    {last : HostMemoryStatus} (hlast : channel.lastStatus = some last)
    (hidentity : identityOf last = identityOf status) :
    Published encode contents status ↔ Published encode contents last := by
  simp only [GuestChannel.changed, hlast, Option.all_some, Bool.or_eq_false_iff,
    decide_eq_false_iff_not, not_not] at hchanged
  obtain ⟨⟨⟨⟨hrequested, hcurrent⟩, hresult⟩, hsize⟩, hblock⟩ := hchanged
  simp only [identityOf, Prod.mk.injEq] at hidentity
  obtain ⟨hversion, hvm, hservice, halias⟩ := hidentity
  have hsame : ∀ observed, { status with observedUnixMillis := observed } =
      { last with observedUnixMillis := observed } := by
    intro observed
    simp [hrequested, hcurrent, hresult, hsize, hblock, hversion, hvm, hservice, halias]
  simp only [Published, hsame]

theorem exists_last (hchanged : channel.changed status = false) :
    ∃ last, channel.lastStatus = some last := by
  cases h : channel.lastStatus with
  | none => simp [GuestChannel.changed, h] at hchanged
  | some last => exact ⟨last, rfl⟩

/-- What holds of a channel and its file between calls. -/
structure Coherent (encode : HostMemoryStatus → Except String (List UInt8))
    (identity : Nat × String × String × String) (p : Publication) : Prop where
  identity : ∀ last, p.channel.lastStatus = some last → identityOf last = identity
  published : p.failed = false → ∀ last, p.channel.lastStatus = some last →
    Published encode p.contents last

theorem Coherent.call {identity : Nat × String × String × String} {p : Publication}
    {events : List (Event ChannelAns)} {result : Except String Unit} {channel' : GuestChannel}
    (h : Coherent encode identity p) (hstatus : identityOf status = identity)
    (hrun : (GuestChannel.publishStatus encode status p.channel).Runs events
      (some (result, channel'))) : Coherent encode identity (p.next events result channel') := by
  rcases @publishStatus_cases encode status p.channel ⟨p.contents, false⟩ _ _ _ hrun with
    ⟨-, hwrites⟩ | ⟨-, rfl, rfl, hfile⟩
  · match result, hwrites with
    | .ok (), ⟨hopened, ⟨bytes, hbytes, hcontents⟩, hlast⟩ =>
        -- Written: the file holds the status, and the channel remembers one that equals it.
        have hpublished := Published.of_encoded hbytes hcontents
        constructor
        · intro last hsome
          change channel'.lastStatus = some last at hsome
          rw [hlast] at hsome
          split at hsome
          · cases hsome
            exact hstatus
          · exact h.identity last hsome
        · intro _ last hsome
          change channel'.lastStatus = some last at hsome
          rw [hlast] at hsome
          split at hsome
          · cases hsome
            exact hpublished
          · next hchanged =>
            refine (published_unchanged (by simpa using hchanged) hsome ?_).mp hpublished
            exact (h.identity last hsome).trans hstatus.symm
    | .error error, ⟨hsame, hopened⟩ =>
        subst hsame
        refine ⟨h.identity, fun hfailed => ?_⟩
        rcases hopened with hopened | hfile
        · simp [Publication.next, hopened, isError] at hfailed
        · simp only [Publication.next, hfile, Bool.false_eq_true, if_false] at hfailed
          simpa [Publication.next, hfile] using h.published hfailed
  · refine ⟨h.identity, fun hfailed => ?_⟩
    simp only [Publication.next, hfile, Bool.false_eq_true, if_false] at hfailed
    simpa [Publication.next, hfile] using h.published hfailed

theorem Publication.Reachable.coherent {identity : Nat × String × String × String} {p : Publication}
    (h : p.Reachable encode identity) : Coherent encode identity p := by
  induction h with
  | new => exact ⟨nofun, nofun⟩
  | call _ hstatus hrun ih => exact ih.call hstatus hrun

/-- **After a call that returns `Ok` the file holds the status exactly if the call wrote, or no failed
write has spoiled what the channel remembers.** -/
theorem publication_coherent {identity : Nat × String × String × String} {p : Publication}
    (h : p.Reachable encode identity) (hstatus : identityOf status = identity)
    {events : List (Event ChannelAns)} {channel' : GuestChannel}
    (hrun : (GuestChannel.publishStatus encode status p.channel).Runs events
      (some (.ok (), channel'))) :
    Published encode (p.next events (.ok ()) channel').contents status ↔
      p.channel.changed status = true ∨ RefreshDue p.channel events ∨ ¬ p.Spoiled encode := by
  rcases @publishStatus_cases encode status p.channel ⟨p.contents, false⟩ _ _ _ hrun with
    ⟨hwrites, -, ⟨bytes, hbytes, hcontents⟩, -⟩ | ⟨hskips, -, -, hfile⟩
  · refine iff_of_true (Published.of_encoded hbytes hcontents) ?_
    exact hwrites.elim .inl fun hdue => .inr (.inl hdue)
  · -- A call that skips leaves the file with what the channel remembers, if that was written.
    obtain ⟨hchanged, hdue⟩ := not_or.mp hskips
    obtain ⟨last, hlast⟩ := exists_last (by simpa using hchanged)
    have hsame : Published encode p.contents status ↔ Published encode p.contents last :=
      published_unchanged (by simpa using hchanged) hlast
        ((h.coherent.identity last hlast).trans hstatus.symm)
    simp only [hchanged, hdue, Bool.false_eq_true, false_or]
    show Published encode (guestFile.after ⟨p.contents, false⟩ events).contents status ↔ _
    rw [hfile, hsame]
    constructor
    · exact fun hpublished hspoiled => hspoiled.2 last hlast hpublished
    · intro hspoiled
      by_contra hnot
      refine hspoiled ⟨?_, ?_⟩
      · by_contra hfailed
        exact hnot (h.coherent.published (by simpa using hfailed) last hlast)
      · intro other hother
        rw [hlast] at hother
        cases hother
        exact hnot

end Calls

/-! ## A return to the status published before -/

/-- The encoding of a status that has no result and whose names need no escapes. -/
def encodePlain (status : HostMemoryStatus) : Except String (List UInt8) :=
  match status.result with
  | some _ => .error "only a status without a result"
  | none =>
    let quoted (text : String) := '"' :: text.toList ++ ['"']
    let fields := [("version", Nat.toDigits 10 status.version),
      ("vm_name", quoted status.vmName), ("service_name", quoted status.serviceName),
      ("device_alias", quoted status.deviceAlias),
      ("observed_unix_millis", Nat.toDigits 10 status.observedUnixMillis),
      ("device_size_bytes", Nat.toDigits 10 status.deviceSizeBytes),
      ("block_size_bytes", Nat.toDigits 10 status.blockSizeBytes),
      ("requested_bytes", Nat.toDigits 10 status.requestedBytes),
      ("current_bytes", Nat.toDigits 10 status.currentBytes), ("result", "null".toList)]
    let text := [','].intercalate (fields.map fun field => quoted field.1 ++ ':' :: field.2)
    .ok (("\x7b".toList ++ text ++ "\x7d".toList).map fun c => UInt8.ofNat c.toNat)

/-- An 8 GiB device with nothing plugged. -/
def plainStatus (requestedBytes : Nat) : HostMemoryStatus where
  version := memoryRequestVersion
  vmName := "guest"
  serviceName := "VirtioMemService"
  deviceAlias := "memory0"
  observedUnixMillis := 1000000
  deviceSizeBytes := 8 * 2 ^ 30
  blockSizeBytes := 2 * 2 ^ 20
  requestedBytes := requestedBytes
  currentBytes := 0
  result := none

/-- An agent that serves every command, or one that stops answering after it has emptied the file. -/
def agent (serves : Bool) : Nat → (op : ChannelOp) → ChannelAns op × Nat
  | now, .instantNow => (now, now + 1)
  | now, .openFile _ => (.opened 1000, now)
  | now, .writeFile _ contents =>
      (if serves then ⟨.ok contents.length, contents, fun _ => rfl⟩
        else ⟨.error "virsh timed out after 10s", [], nofun⟩, now)
  | now, .closeFile _ => (.done, now)
  | now, .notify => ((), now)

abbrev Call : Type := List (Event ChannelAns) × (Except String Unit × GuestChannel) × Nat

/-- A call at some time, with an agent that serves it or not. -/
def publishing (serves : Bool) (status : HostMemoryStatus) (channel : GuestChannel) (now : Nat) :
    Call :=
  (GuestChannel.publishStatus encodePlain status channel).simulate (agent serves) now

theorem publishing_run (serves : Bool) (status : HostMemoryStatus) (channel : GuestChannel)
    (now : Nat) : (GuestChannel.publishStatus encodePlain status channel).Runs
      (publishing serves status channel now).1 (some ((publishing serves status channel now).2.1.1,
        (publishing serves status channel now).2.1.2)) :=
  Prog.simulate_runs _ _ _

def Publication.publish (p : Publication) (serves : Bool) (status : HostMemoryStatus) (now : Nat) :
    Publication :=
  let call := publishing serves status p.channel now
  p.next call.1 call.2.1.1 call.2.1.2

theorem Publication.Reachable.publish {identity : Nat × String × String × String} {p : Publication}
    (h : p.Reachable encodePlain identity) (serves : Bool) {status : HostMemoryStatus} (now : Nat)
    (hstatus : identityOf status = identity) :
    (p.publish serves status now).Reachable encodePlain identity :=
  .call h hstatus (publishing_run serves status p.channel now)

/-- One status published, and a second one that was not. -/
def interrupted : Publication :=
  ((Publication.mk (.new "C:/telemetry.json" (60 * 10 ^ 9) true) [] false).publish true
    (plainStatus 0) 0).publish false (plainStatus (2 * 2 ^ 20)) 1

theorem interrupted_reachable :
    interrupted.Reachable encodePlain (identityOf (plainStatus 0)) :=
  ((Publication.Reachable.new _ _ _ _).publish true 0 rfl).publish false 1 rfl

/-- The second status again, which the channel does not remember as written. -/
def retrying : Call := publishing true (plainStatus (2 * 2 ^ 20)) interrupted.channel 2

theorem retrying_published :
    Published encodePlain (interrupted.next retrying.1 (.ok ()) retrying.2.1.2).contents
      (plainStatus (2 * 2 ^ 20)) := by
  have hrun : (GuestChannel.publishStatus encodePlain (plainStatus (2 * 2 ^ 20))
      interrupted.channel).Runs retrying.1 (some (retrying.2.1.1, retrying.2.1.2)) := by
    unfold retrying
    exact publishing_run true (plainStatus (2 * 2 ^ 20)) interrupted.channel 2
  have hok : retrying.2.1.1 = .ok () := by decide +kernel
  rw [hok] at hrun
  have hchanged : interrupted.channel.changed (plainStatus (2 * 2 ^ 20)) = true := by decide +kernel
  have hstatus : identityOf (plainStatus (2 * 2 ^ 20)) = identityOf (plainStatus 0) := rfl
  exact (publication_coherent interrupted_reachable hstatus hrun).mpr (.inl hchanged)

/-- The first status again, before a refresh is due. -/
def returning : Call := publishing true (plainStatus 0) interrupted.channel 2

theorem returning_run : (GuestChannel.publishStatus encodePlain (plainStatus 0)
    interrupted.channel).Runs returning.1 (some (.ok (), returning.2.1.2)) := by
  have hrun : (GuestChannel.publishStatus encodePlain (plainStatus 0) interrupted.channel).Runs
      returning.1 (some (returning.2.1.1, returning.2.1.2)) := by
    unfold returning
    exact publishing_run true (plainStatus 0) interrupted.channel 2
  have hok : returning.2.1.1 = .ok () := by decide +kernel
  rwa [hok] at hrun

/-- The call returns `Ok` and leaves the file as empty as the one before it did. -/
theorem returning_contents :
    (interrupted.next returning.1 (.ok ()) returning.2.1.2).contents = [] := by
  decide +kernel

/-- A status is published, a second one fails with the file emptied, and the first one returns: the
call answers `Ok` over an empty file. -/
theorem returning_unpublished :
    ¬ ∀ (encode : HostMemoryStatus → Except String (List UInt8))
        (identity : Nat × String × String × String) (p : Publication) (status : HostMemoryStatus)
        (events : List (Event ChannelAns)) (channel : GuestChannel),
        p.Reachable encode identity → identityOf status = identity →
        (GuestChannel.publishStatus encode status p.channel).Runs events (some (.ok (), channel)) →
        Published encode (p.next events (.ok ()) channel).contents status := by
  intro h
  obtain ⟨observed, bytes, -, hcontents⟩ := h encodePlain _ interrupted (plainStatus 0) _ _
    interrupted_reachable rfl returning_run
  rw [returning_contents] at hcontents
  simp at hcontents

end VirtioMem.Host
