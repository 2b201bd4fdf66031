import Mathlib.Algebra.Order.BigOperators.Group.Finset
import VirtioMem.Guest.Issued
import VirtioMem.Host.Asked

/-!
# The guests and the host together

Two programs that never meet: each guest's service replaces its files, the host's daemon reads the
publications and writes a status back. `JointRun` puts them side by side, event by event in any
order: every party may crash and start again where it stands, what one side reads the other has
written before, and either may read what is long out of date.

What holds of the whole is put together from what each side keeps by itself (`Guest.Conversed`,
`Host.Lawful`): the host resizes for the guest's requests in the order in which the guest made them
durable (`resizes_follow_requests`), none of them is lost (`requests_answered`), and no device gets
more than its guest has asked for (`growth_was_asked`).
-/

namespace VirtioMem.Joint

open VirtioMem.Core VirtioMem.Effect

/-! ## The system -/

/-- One event of the whole: of the service in a guest, or of the host. -/
inductive Happening where
  | guest (index : Nat) (label : Guest.FileLabel)
  | host (label : Host.Label)

def Happening.ofGuest (index : Nat) : Happening → Option Guest.FileLabel
  | .guest other label => if other = index then some label else none
  | .host _ => none

def Happening.ofHost : Happening → Option Host.Label
  | .host label => some label
  | .guest _ _ => none

/-- What the service of one guest does. -/
def guestOf (index : Nat) (happenings : List Happening) : List Guest.FileLabel :=
  happenings.filterMap (Happening.ofGuest index)

def hostOf (happenings : List Happening) : List Host.Label :=
  happenings.filterMap Happening.ofHost

/-- What stands in a file between them. -/
inductive Message where
  | publication (index : Nat) (envelope : RawTelemetryEnvelope)
  | status (index : Nat) (status : HostMemoryStatus)
  deriving DecidableEq

def Happening.reads : Happening → Option Message
  | .host (.event ⟨.vm index .readGuest, .ok envelope⟩) => some (.publication index envelope)
  | .guest index (.service ⟨.worker .readStatus, .ok (some status)⟩) => some (.status index status)
  | _ => none

/-- A write of a status that reports a failure may have come through. -/
def Happening.writes : Happening → Option Message
  | .guest index (.service ⟨.rename (.publication envelope), renamed⟩) =>
      if renamed.moved then some (.publication index envelope) else none
  | .host (.event ⟨.vm index (.publishStatus status), _⟩) => some (.status index status)
  | _ => none

/-- **The files between them.** What one side reads, the other has written before; it needs not be what
was written last. -/
def Fed (happenings : List Happening) : Prop :=
  ∀ before happening after, happenings = before ++ happening :: after →
    ∀ message, happening.reads = some message →
      ∃ earlier ∈ before, earlier.writes = some message

/-- How the service of a guest is set up. -/
structure GuestSetup where
  vmName : String
  serviceName : String
  publicationPath : String

/-- **Every run of the whole.** -/
structure JointRun (pool : Option Nat) (configs : List Host.HostConfig) (guests : Nat → GuestSetup)
    (happenings : List Happening) : Prop where
  host : ∃ process, Host.HostRun pool configs (hostOf happenings) process
  guest : ∀ index, ∃ process, Guest.FileRun (guests index).vmName (guests index).serviceName
    (guests index).publicationPath (guestOf index happenings) process
  /-- A stop is never taken back. -/
  stop : ∀ index, Guest.KeepsStop false (guestOf index happenings)
  fed : Fed happenings

variable {pool : Option Nat} {configs : List Host.HostConfig} {guests : Nat → GuestSetup}
  {happenings before after : List Happening} {index : Nat} {request : MemoryRequest}

theorem mem_guestOf {label : Guest.FileLabel} :
    label ∈ guestOf index happenings ↔ .guest index label ∈ happenings := by
  simp only [guestOf, List.mem_filterMap]
  constructor
  · rintro ⟨_ | _, hmem, h⟩
    · simp only [Happening.ofGuest, Option.ite_none_right_eq_some, Option.some.injEq] at h
      obtain ⟨rfl, rfl⟩ := h
      exact hmem
    · cases h
  · exact fun hmem => ⟨_, hmem, by simp [Happening.ofGuest]⟩

theorem mem_hostOf {label : Host.Label} : label ∈ hostOf happenings ↔ .host label ∈ happenings := by
  simp only [hostOf, List.mem_filterMap]
  constructor
  · rintro ⟨_ | _, hmem, h⟩
    · cases h
    · cases h
      exact hmem
  · exact fun hmem => ⟨_, hmem, rfl⟩

@[simp] theorem guestOf_append (first second : List Happening) :
    guestOf index (first ++ second) = guestOf index first ++ guestOf index second := by
  simp [guestOf]

@[simp] theorem hostOf_append (first second : List Happening) :
    hostOf (first ++ second) = hostOf first ++ hostOf second := by
  simp [hostOf]

@[simp] theorem hostOf_host (labels : List Host.Label) :
    hostOf (labels.map Happening.host) = labels := by
  simp [hostOf, List.filterMap_map, Function.comp_def, Happening.ofHost]

@[simp] theorem hostOf_guest (index : Nat) (labels : List Guest.FileLabel) :
    hostOf (labels.map (Happening.guest index)) = [] := by
  simp [hostOf, List.filterMap_map, Function.comp_def, Happening.ofHost]

@[simp] theorem guestOf_host (labels : List Host.Label) :
    guestOf index (labels.map Happening.host) = [] := by
  simp [guestOf, List.filterMap_map, Function.comp_def, Happening.ofGuest]

@[simp] theorem guestOf_guest (other : Nat) (labels : List Guest.FileLabel) :
    guestOf index (labels.map (Happening.guest other)) = if other = index then labels else [] := by
  split_ifs with hsame <;>
    simp [guestOf, List.filterMap_map, Function.comp_def, Happening.ofGuest, hsame]

/-- What a guest has issued stays issued. -/
theorem issued_mono {first second : List Happening}
    (h : request ∈ Guest.issued (guestOf index first)) :
    request ∈ Guest.issued (guestOf index (first ++ second)) := by
  rw [guestOf_append, Guest.issued, List.filterMap_append]
  exact List.mem_append_left _ h

theorem writes_publication {happening : Happening} {envelope : RawTelemetryEnvelope}
    (h : happening.writes = some (.publication index envelope)) : ∃ renamed,
      happening = .guest index (.service ⟨.rename (.publication envelope), renamed⟩) := by
  unfold Happening.writes at h
  split at h
  · split_ifs at h
    cases h
    exact ⟨_, rfl⟩
  · cases h
  · cases h

theorem writes_status {happening : Happening} {status : HostMemoryStatus}
    (h : happening.writes = some (.status index status)) : ∃ answer,
      happening = .host (.event ⟨.vm index (.publishStatus status), answer⟩) := by
  unfold Happening.writes at h
  split at h
  · split_ifs at h
    cases h
  · cases h
    exact ⟨_, rfl⟩
  · cases h

/-! ## What the whole keeps -/

theorem JointRun.conversed (h : JointRun pool configs guests happenings) (index : Nat) :
    Guest.Conversed (guestOf index happenings)
      (Guest.ServiceFiles.after (guestOf index happenings)).requestState := by
  obtain ⟨process, hrun⟩ := h.guest index
  exact Guest.fileRun_conversed hrun (h.stop index)

theorem JointRun.lawful (h : JointRun pool configs guests happenings) :
    Host.Lawful pool configs .initial (hostOf happenings) := by
  obtain ⟨process, hrun⟩ := h.host
  exact (Host.hostRun_lawful hrun).1

/-- A publication the host reads carries only what its guest had made durable before. -/
theorem JointRun.read_issued (h : JointRun pool configs guests happenings)
    {envelope : RawTelemetryEnvelope}
    (hsplit : happenings = before ++ .host (.event ⟨.vm index .readGuest, .ok envelope⟩) :: after)
    (hrequest : envelope.request = some request) :
    request ∈ Guest.issued (guestOf index before) := by
  obtain ⟨earlier, hmem, hwrites⟩ := h.fed before _ after hsplit (.publication index envelope) rfl
  obtain ⟨renamed, rfl⟩ := writes_publication hwrites
  -- The guest had made the request durable before it renamed the publication into place.
  obtain ⟨first, second, hbefore⟩ := List.append_of_mem hmem
  have hpublished := (h.conversed index).published (guestOf index first)
    (guestOf index (second ++ .host (.event ⟨.vm index .readGuest, .ok envelope⟩) :: after))
    envelope renamed ?_ request hrequest
  · rw [hbefore]
    exact issued_mono hpublished
  · rw [hsplit, hbefore]
    simp [guestOf, Happening.ofGuest]

/-- **A resize is for a request its guest had made durable before.** -/
theorem JointRun.resized_issued (h : JointRun pool configs guests happenings)
    {expected : VirtioMemState} {target : Nat} {authorize : Host.Authorization}
    {answer : Host.VmAns (.requestResize request expected target authorize)}
    (hsplit : happenings = before ++
      .host (.event ⟨.vm index (.requestResize request expected target authorize), answer⟩) :: after) :
    request ∈ Guest.issued (guestOf index before) := by
  have hlawful := h.lawful
  rw [hsplit, hostOf_append] at hlawful
  obtain ⟨hbefore, hallowed, -⟩ := Host.lawful_append.mp hlawful
  obtain ⟨config, stage, committed, -, hmay⟩ := hallowed.may
  obtain ⟨-, -, -, -, -, -, -, -, -, envelope, ceiling, hguest, hrequest, -⟩ := hmay
  -- The publication it rests on was read before, and renamed into place before that.
  obtain ⟨first, second, rfl⟩ := List.append_of_mem (mem_hostOf.mp (hbefore.read_before hguest))
  rw [List.append_assoc, List.cons_append] at hsplit
  exact issued_mono (h.read_issued hsplit hrequest)

/-- Two requests in the order in which a guest issues them. -/
def InOrder (first second : MemoryRequest) : Prop :=
  first = second ∨ first.issuedUnixMillis < second.issuedUnixMillis

instance : Std.Antisymm InOrder where
  antisymm first second h h' := by
    rcases h with h | h
    · exact h
    · rcases h' with h' | h'
      · exact h'.symm
      · omega

theorem JointRun.resized_subset (h : JointRun pool configs guests happenings) (index : Nat) :
    (hostOf happenings).filterMap (Host.resizeRequestOf index) ⊆
      Guest.issued (guestOf index happenings) := by
  intro request hmem
  obtain ⟨label, hlabel, hresize⟩ := List.mem_filterMap.mp hmem
  obtain ⟨expected, target, authorize, answer, rfl⟩ := Host.resizeRequestOf_eq_some hresize
  obtain ⟨before, after, hsplit⟩ := List.append_of_mem (mem_hostOf.mp hlabel)
  rw [hsplit]
  exact issued_mono (h.resized_issued hsplit)

theorem JointRun.resized_later (h : JointRun pool configs guests happenings) (index : Nat) :
    ((hostOf happenings).filterMap (Host.resizeRequestOf index)).Pairwise fun first second =>
      first.issuedUnixMillis < second.issuedUnixMillis :=
  h.lawful.resized_later Host.controlInv_fresh

theorem JointRun.resized_nodup (h : JointRun pool configs guests happenings) (index : Nat) :
    ((hostOf happenings).filterMap (Host.resizeRequestOf index)).Nodup := by
  refine (h.resized_later index).imp fun {first second} hlater hsame => ?_
  rw [hsame] at hlater
  exact lt_irrefl _ hlater

/-- **The host follows the guest.** In every run of the whole, the requests a VM is resized for are,
each once and in the same order, among those its guest made durable; and each was durable in the guest
when it was resized for. -/
theorem resizes_follow_requests (h : JointRun pool configs guests happenings) (index : Nat) :
    ((hostOf happenings).filterMap (Host.resizeRequestOf index)).Sublist
        (Guest.issued (guestOf index happenings)) ∧
      ((hostOf happenings).filterMap (Host.resizeRequestOf index)).Nodup ∧
      ∀ before after request expected target authorize answer, happenings = before ++ .host (.event
          ⟨.vm index (.requestResize request expected target authorize), answer⟩) :: after →
        request ∈ Guest.issued (guestOf index before) := by
  -- What is contained without repetitions in what is ordered alike is a sublist of it.
  refine ⟨@List.sublist_of_subperm_of_pairwise _ InOrder _ _ _
    ((h.resized_nodup index).subperm (h.resized_subset index))
    ((h.resized_later index).imp .inr) (h.conversed index).ordered, h.resized_nodup index, ?_⟩
  intro before after request expected target authorize answer hsplit
  exact h.resized_issued hsplit

/-- **No request is lost.** In every run of the whole, each request a guest ever made durable is still
pending in its durable state, or the host has published a terminal result for it. -/
theorem requests_answered (h : JointRun pool configs guests happenings) (index : Nat) :
    ∀ request ∈ Guest.issued (guestOf index happenings),
      (Guest.ServiceFiles.after (guestOf index happenings)).requestState.pending = some request ∨
        ∃ status answer, Guest.Closes status request ∧
          .event ⟨.vm index (.publishStatus status), answer⟩ ∈ hostOf happenings := by
  intro request hissued
  rcases (h.conversed index).answered request hissued with hpending | ⟨status, hcloses, hread⟩
  · exact .inl hpending
  -- The status the guest dropped it on was written by the host.
  obtain ⟨before, after, hsplit⟩ := List.append_of_mem (mem_guestOf.mp hread)
  obtain ⟨earlier, hmem, hwrites⟩ := h.fed before _ after hsplit (.status index status) rfl
  obtain ⟨answer, rfl⟩ := writes_status hwrites
  refine .inr ⟨status, answer, hcloses, mem_hostOf.mpr ?_⟩
  rw [hsplit]
  exact List.mem_append_left _ hmem

/-- **A device gains what its guest has asked for, at most.** Whatever the devices do and the sinks
answer, as long as no widening is left half done: beyond what it had, or was told to have, at the start,
a device gains no more than the additions its guest made durable, each counted once. -/
theorem growth_was_asked (h : JointRun pool configs guests happenings) {D D' : Host.Devices}
    (hfollows : Host.Follows D (hostOf happenings) D')
    (hclean : Host.CleanWidenings (hostOf happenings)) (index : Nat) :
    max (D' index).requestedBytes (D' index).currentBytes ≤
      max (D index).requestedBytes (D index).currentBytes +
        ∑ request ∈ (Guest.issued (guestOf index happenings)).toFinset, Host.addedBy request := by
  have hstart : Host.Under (max (D index).requestedBytes (D index).currentBytes)
      (Host.HostWorld.initial index) (D index) := ⟨le_max_right _ _, le_max_left _ _, nofun⟩
  have hgrown := h.lawful.grown (hclean index) hfollows hstart
  refine (max_le hgrown.requested hgrown.current).trans (Nat.add_le_add_left ?_ _)
  -- The host counts each request it resized for once, and all of them were issued.
  rw [← List.sum_toFinset _ (h.resized_nodup index)]
  refine Finset.sum_le_sum_of_subset fun request hmem => ?_
  rw [List.mem_toFinset] at hmem ⊢
  exact h.resized_subset index hmem

/-! ## One request on its way

The host publishes the status of an idle device, a guest that is short of memory reads it and asks, and
the host resizes the device. -/

/-- Whether everything that is read was written before, `written` being what stands there at first. -/
def fedFrom (written : List Message) : List Happening → Bool
  | [] => true
  | happening :: rest =>
    happening.reads.all (fun message => decide (message ∈ written)) &&
      fedFrom (happening.writes.toList ++ written) rest

theorem fed_of_fedFrom (h : fedFrom [] happenings = true) : Fed happenings := by
  have hread : ∀ (before : List Happening) {written happening after}, fedFrom written
      (before ++ happening :: after) = true → ∀ message, happening.reads = some message →
        message ∈ written ∨ ∃ earlier ∈ before, earlier.writes = some message := by
    intro before
    induction before with
    | nil =>
        intro written happening after h message hreads
        simp only [List.nil_append, fedFrom, Bool.and_eq_true, hreads, Option.all_some,
          decide_eq_true_eq] at h
        exact .inl h.1
    | cons first before ih =>
        intro written happening after h message hreads
        simp only [List.cons_append, fedFrom, Bool.and_eq_true] at h
        rcases ih h.2 message hreads with hmem | ⟨earlier, hmem, hwrites⟩
        · rcases List.mem_append.mp hmem with hfirst | hwritten
          · exact .inr ⟨first, List.mem_cons_self, Option.mem_toList.mp hfirst⟩
          · exact .inl hwritten
        · exact .inr ⟨earlier, List.mem_cons_of_mem _ hmem, hwrites⟩
  rintro before happening after rfl message hreads
  exact (hread before h message hreads).resolve_left List.not_mem_nil

/-- No guest has published anything yet. -/
def idleScript : Host.Script :=
  { Host.exampleScript (Host.examplePublication 0 Host.exampleAdd) with
    unixMillis := 5500, guest := fun _ => none }

def idleDevices : Host.Devices := fun _ => Host.exampleDevice (2 ^ 31) (2 ^ 31)

def idle : List Host.Label × Host.HostRuntime × Host.Devices :=
  Host.Script.rounds [idleScript] Host.exampleRuntime idleDevices

def idleStatus : Option HostMemoryStatus :=
  idle.1.findSome? fun
    | .event ⟨.vm 0 (.publishStatus status), _⟩ => some status
    | _ => none

def askingService (_ : Unit) : (op : Guest.ServiceOp) → Guest.ServiceAns op × Unit
  | .worker .readStatus => (.ok idleStatus, ())
  | op => Guest.exampleService () op

def asking : List (Event Guest.ServiceAns) × Option Guest.GuestMemoryWorker × Unit :=
  (Guest.exampleWorker.pollOrRetry.interpret (Guest.Handoff.carryOut "telemetry.json" 0)).simulate
    askingService ()

def askedScript : Host.Script :=
  { idleScript with
    unixMillis := 6500, instant := 1000000000, guest := fun _ => some Guest.exampleEnvelope }

def asked : List Host.Label × Host.HostRuntime × Host.Devices :=
  Host.Script.rounds [askedScript] idle.2.1 idle.2.2

def idleLabels : List Host.Label := .started :: idle.1

def askingLabels : List Guest.FileLabel := .started :: asking.1.map .service

/-- Up to the resize. -/
def exchange : List Happening :=
  idleLabels.map .host ++ askingLabels.map (.guest 0) ++ asked.1.map .host

theorem exchange_hostOf : hostOf exchange = idleLabels ++ asked.1 := by
  simp [exchange]

theorem exchange_guestOf : guestOf index exchange = if 0 = index then askingLabels else [] := by
  simp [exchange]

def exampleSetup (_ : Nat) : GuestSetup := ⟨"guest", "service", "telemetry.json"⟩

theorem exchange_host : Host.HostRun none [Host.exampleConfig] (hostOf exchange) (some asked.2.1) ∧
    Host.Follows idleDevices (hostOf exchange) asked.2.2 := by
  obtain ⟨hidle, hidleFollows⟩ := Host.Script.playable_run Host.exampleRuntime_run (by decide +kernel :
    Host.Script.playable [idleScript] Host.exampleRuntime idleDevices = true)
  obtain ⟨hasked, haskedFollows⟩ := Host.Script.playable_run hidle (by decide +kernel :
    Host.Script.playable [askedScript] idle.2.1 idle.2.2 = true)
  rw [exchange_hostOf]
  exact ⟨hasked, Host.follows_append.mpr ⟨_, .label (fun _ => .refl _) .started hidleFollows,
    haskedFollows⟩⟩

theorem exchange_run : JointRun none [Host.exampleConfig] exampleSetup exchange where
  host := ⟨_, exchange_host.1⟩
  guest := by
    intro index
    rw [exchange_guestOf]
    -- The other guests have never started.
    split
    · have hstart := @Guest.FileRun.start "guest" "service" "telemetry.json" _ _ "new-session"
        GuestRequester.examplePolicy { GuestRequester.restartedRequester with state := .initial }
        0 Word.maximum .fresh (by decide)
      exact ⟨_, .poll hstart (Prog.simulate_runs _ _ _)⟩
    · exact ⟨none, .fresh⟩
  stop := by
    intro index
    rw [exchange_guestOf]
    split
    · exact Guest.keepsStop_running (by decide +kernel : asking.1.all (fun event =>
        Guest.seenCancelled event != some true) = true)
    · trivial
  fed := fed_of_fedFrom (by decide +kernel)

theorem exchange_follows : ((hostOf exchange).filterMap (Host.resizeRequestOf 0)).Sublist
    (Guest.issued (guestOf 0 exchange)) ∧
      Guest.exampleRequest ∈ (hostOf exchange).filterMap (Host.resizeRequestOf 0) :=
  ⟨(resizes_follow_requests exchange_run 0).1, by decide +kernel⟩

theorem exchange_answered :
    (Guest.ServiceFiles.after (guestOf 0 exchange)).requestState.pending = some Guest.exampleRequest ∨
      ∃ status answer, Guest.Closes status Guest.exampleRequest ∧
        .event ⟨.vm 0 (.publishStatus status), answer⟩ ∈ hostOf exchange :=
  requests_answered exchange_run 0 Guest.exampleRequest (by decide +kernel)

theorem exchange_grown : max (asked.2.2 0).requestedBytes (asked.2.2 0).currentBytes ≤ 2 ^ 31 + 2 ^ 31 := by
  have hgrown := growth_was_asked exchange_run exchange_host.2
    (Host.cleanWidenings_of_none (by decide +kernel)) 0
  have hsum : ∑ request ∈ (Guest.issued (guestOf 0 exchange)).toFinset, Host.addedBy request = 2 ^ 31 := by
    decide +kernel
  rwa [hsum] at hgrown

end VirtioMem.Joint
