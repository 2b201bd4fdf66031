import VirtioMem.Core.Compatibility
import VirtioMem.Host.Controller

/-!
# The resize sink

How the three sink operations of the controller are carried out by `virsh` commands. Every command
follows a fresh reading of the live device and of the compatibility evidence (`prepare`); a resize is
then one command, and a widening is five of them: pause the domain, request the whole device, request
again what was requested before (with a second try), and resume.

A command that is reported to have failed may have taken effect all the same, so a `Reply` says both
what was reported and what happened. `Domain` is what the commands act on; the guest moves what is
plugged in its own time, but only while it runs.

The sink speaks about one device of one domain, so their names are left out, and what `virsh` prints
is taken as the parser has read it.

## Main result

`means_iff`: what a sink operation answers means what the controller takes it to mean exactly where no
`suspend` is reported to have failed and has paused the domain all the same. The sink answers such a
failure with `rejected`, which stands for a command that was never sent.
-/

namespace VirtioMem.Host

open VirtioMem.Core VirtioMem.Effect VirtioMem.Result

/-- What `dumpxml` says about the device. -/
structure VirtioMemSnapshot where
  compatibility : VirtioMemCompatibility
  memory : VirtioMemState

inductive DomainCommand where
  | updateMemoryDevice (requestedKib : Nat)
  | suspend
  | resume
  deriving DecidableEq, Repr

/-- What was reported of a command, and for a failure whether it took effect. -/
inductive Reply where
  | done
  | failed (error : String) (applied : Bool)
  deriving DecidableEq, Repr

def Reply.applied : Reply → Bool
  | .done => true
  | .failed _ applied => applied

/-- What `virsh` returns. -/
def Reply.report : Reply → Except String Unit
  | .done => .ok ()
  | .failed error _ => .error error

inductive SinkOp where
  | compatibility
  | dumpxml
  | authorize
  | stopRequested
  | command (command : DomainCommand)

abbrev SinkAns : SinkOp → Type
  | .compatibility => Except String VirtioMemCompatibility
  | .dumpxml => Except String VirtioMemSnapshot
  | .authorize => Except String Unit
  | .stopRequested => Bool
  | .command _ => Reply

abbrev SinkProg (α : Type) : Type := Prog SinkOp SinkAns α

namespace VirshResizeSink

def ask (op : SinkOp) : SinkProg (SinkAns op) := .perform op .pure

/-- The command for one validated resize. -/
abbrev PreparedResize : Type := DomainCommand

/-- The checks of one resize, on a fresh reading. -/
def prepared (compatibility : VirtioMemCompatibility) (snapshot : VirtioMemSnapshot) (target : Nat)
    (precondition : VirtioMemState → Except String Unit) : Except String PreparedResize := do
  let merged ← (snapshot.compatibility.merge compatibility).mapError (·.toString)
  merged.validateForResize.mapError (·.toString)
  let state := snapshot.memory
  (state.validateTarget target).mapError (·.toString)
  precondition state
  let requestedKib ← okOr (bytesToKibibytes target)
    "resize target must be an integer number of KiB"
  return .updateMemoryDevice requestedKib

/-- Read the live device immediately before a command and check it. -/
def prepare (target : Nat) (precondition : VirtioMemState → Except String Unit) :
    SinkProg (Except String PreparedResize) := do
  match ← ask .compatibility with
  | .error error => return .error error
  | .ok compatibility =>
    match ← ask .dumpxml with
    | .error error => return .error error
    | .ok snapshot => return prepared compatibility snapshot target precondition

def run (command : DomainCommand) : SinkProg (Except String Unit) := do
  return (← ask (.command command)).report

def applyPrepared (prepared : PreparedResize) : SinkProg (Except String Unit) := run prepared

def applyUnlessStopped (prepared : PreparedResize) : SinkProg (Except ResizeSinkError Unit) := do
  if ← ask .stopRequested then return .error (.rejected "shutdown requested")
  else return (← applyPrepared prepared).mapError .commandUnknown

def requestResizeGuarded (expected : VirtioMemState) (target : Nat) :
    SinkProg (Except ResizeSinkError Unit) := do
  let unchanged (state : VirtioMemState) : Except String Unit :=
    if state ≠ expected ∨ state.requestedBytes ≠ state.currentBytes then
      .error "live device state changed since the resize decision"
    else .ok ()
  match ← prepare target unchanged with
  | .error error => return .error (.rejected error)
  | .ok prepared =>
    match ← ask .authorize with
    | .error error => return .error (.rejected error)
    | .ok () => applyUnlessStopped prepared

def retargetPendingGuarded (expected : VirtioMemState) (target : Nat) :
    SinkProg (Except ResizeSinkError Unit) := do
  let pending (state : VirtioMemState) : Except String Unit :=
    if state ≠ expected ∨ state.requestedBytes = state.currentBytes then
      .error "live pending resize changed since the retarget decision"
    else .ok ()
  match ← prepare target pending with
  | .error error => return .error (.rejected error)
  | .ok prepared => applyUnlessStopped prepared

/-- The restoring command for a widened device. It cannot ask for the live state it left, since the
device then requests its whole size. -/
def prepareRestore (expected : VirtioMemState) : SinkProg (Except String PreparedResize) :=
  prepare expected.requestedBytes fun state =>
    if state.currentBytes ≠ expected.currentBytes then
      .error "device allocation changed while paused"
    else .ok ()

/-- Prefix of a widening failure that left the whole device requested. -/
def widenUnrestored : String :=
  "requested size was not restored after widening; domain left paused"

/-- Request again what was requested before: the prepared command, or a newly prepared one. -/
def restoreRequested (expected : VirtioMemState) (restore : PreparedResize) :
    SinkProg (Except String Unit) := do
  match ← applyPrepared restore with
  | .ok () => return .ok ()
  | .error _ =>
    match ← prepareRestore expected with
    | .error error => return .error error
    | .ok restore => applyPrepared restore

/-- What a widening comes to once the request is restored. -/
def widenOutcome : Except String Unit → Except String Unit → Except ResizeSinkError Unit
  | .ok (), .ok () => .ok ()
  | _, .error error => .error (.commandUnknown
      ("domain could not be resumed after widening: " ++ error))
  | .error error, .ok () => .error (.commandUnknown
      ("widening the usable region failed after pausing: " ++ error))

/-- The commands sent to a paused domain. It is never resumed with the whole device possibly
requested, for the driver would plug all of it; so the restore always runs, even where the widening
command failed. -/
def widenPaused (expected : VirtioMemState) (widen restore : PreparedResize) :
    SinkProg (Except ResizeSinkError Unit) := do
  let widened ← applyPrepared widen
  match ← restoreRequested expected restore with
  | .error error => return .error (.commandUnknown (widenUnrestored ++ ": " ++ error))
  | .ok () => return widenOutcome widened (← run .resume)

def widenUsableRegionGuarded (expected : VirtioMemState) :
    SinkProg (Except ResizeSinkError Unit) := do
  let converged (state : VirtioMemState) : Except String Unit :=
    if state ≠ expected ∨ state.requestedBytes ≠ state.currentBytes then
      .error "live device changed since the widening decision"
    else .ok ()
  match ← prepare expected.maximumTargetBytes converged with
  | .error error => return .error (.rejected error)
  | .ok widen =>
    match ← prepare expected.requestedBytes converged with
    | .error error => return .error (.rejected error)
    | .ok restore =>
      if ← ask .stopRequested then return .error (.rejected "shutdown requested")
      else
        match ← run .suspend with
        | .error error => return .error (.rejected error)
        | .ok () => widenPaused expected widen restore

end VirshResizeSink

/-! ## The domain -/

/-- What the commands act on: the device's two sizes, and whether the guest runs. -/
structure Domain where
  requestedBytes : Nat
  currentBytes : Nat
  running : Bool
  deriving DecidableEq, Repr

namespace Domain

def apply (d : Domain) : DomainCommand → Domain
  | .updateMemoryDevice requestedKib => { d with requestedBytes := requestedKib * bytesPerKib }
  | .suspend => { d with running := false }
  | .resume => { d with running := true }

/-- What an operation leaves. Only a command that takes effect changes anything. -/
def next (d : Domain) : (op : SinkOp) → SinkAns op → Domain
  | .command command, reply => if reply.applied then d.apply command else d
  | .compatibility, _ | .dumpxml, _ | .authorize, _ | .stopRequested, _ => d

/-- What the guest does by itself: it may plug and unplug while it runs. -/
def Moves (d d' : Domain) : Prop :=
  d'.requestedBytes = d.requestedBytes ∧ d'.running = d.running ∧
    (d.running = false → d'.currentBytes = d.currentBytes)

/-- The domain may go from the first to the last along the events. -/
inductive Follows : Domain → List (Event SinkAns) → Domain → Prop
  | done {d d' : Domain} (h : Moves d d') : Follows d [] d'
  | event {d d₁ d' : Domain} {op : SinkOp} {answer : SinkAns op} {events : List (Event SinkAns)}
      (hmoves : Moves d d₁) (h : Follows (d₁.next op answer) events d') :
      Follows d (⟨op, answer⟩ :: events) d'

end Domain

/-- Where the events alone lead, with a guest that leaves the device as it is. -/
def Domain.after (d : Domain) (events : List (Event SinkAns)) : Domain :=
  events.foldl (fun d event => d.next event.1 event.2) d

theorem Domain.follows_after (d : Domain) (events : List (Event SinkAns)) :
    d.Follows events (d.after events) := by
  induction events generalizing d with
  | nil => exact .done ⟨rfl, rfl, fun _ => rfl⟩
  | cons event events ih => exact .event ⟨rfl, rfl, fun _ => rfl⟩ (ih _)

/-- A `suspend` was reported to have failed and has paused the domain. -/
def PausedUnreported (events : List (Event SinkAns)) : Prop :=
  ∃ error, ⟨.command .suspend, .failed error true⟩ ∈ events

/-! ## The operations -/

/-- A call of one of the three sink operations. -/
inductive ResizeCall where
  | requestResize (expected : VirtioMemState) (target : Nat)
  | retargetPending (expected : VirtioMemState) (target : Nat)
  | widenUsableRegion (expected : VirtioMemState)
  deriving DecidableEq, Repr

namespace ResizeCall

def program : ResizeCall → SinkProg (Except ResizeSinkError Unit)
  | .requestResize expected target => VirshResizeSink.requestResizeGuarded expected target
  | .retargetPending expected target => VirshResizeSink.retargetPendingGuarded expected target
  | .widenUsableRegion expected => VirshResizeSink.widenUsableRegionGuarded expected

def expected : ResizeCall → VirtioMemState
  | .requestResize expected _ | .retargetPending expected _ | .widenUsableRegion expected => expected

/-- What `ok` stands for. -/
def Achieved : ResizeCall → (requestedBytes : Nat) → (running : Bool) → Prop
  | .requestResize _ target, requestedBytes, _ => requestedBytes = target
  | .retargetPending _ target, requestedBytes, _ => requestedBytes = target
  | .widenUsableRegion expected, requestedBytes, running =>
      requestedBytes = expected.requestedBytes ∧ running = true

/-- What the controller takes an answer to mean, and when the domain is resumed. -/
structure Means (call : ResizeCall) (before : Domain) (events : List (Event SinkAns))
    (answer : Except ResizeSinkError Unit) (after : Domain) : Prop where
  rejected : ∀ reason, answer = .error (.rejected reason) →
    after.requestedBytes = before.requestedBytes ∧ after.running = before.running
  achieved : answer = .ok () → call.Achieved after.requestedBytes after.running
  /-- `resume` finds requested again what was requested before the widening, so it finds the whole
  device requested only where it was so before. -/
  resumed : ∀ first reply second d, events = first ++ ⟨.command .resume, reply⟩ :: second →
    before.Follows first d → d.requestedBytes = call.expected.requestedBytes

end ResizeCall

/-! ## What the commands leave

The requested size and the running state follow from the events alone, whatever the guest does, so
they are the state of a safety automaton. It also remembers a pause that was not reported. -/

structure Commanded where
  requestedBytes : Nat
  running : Bool
  unreported : Bool

namespace Commanded

def next (w : Commanded) : (op : SinkOp) → SinkAns op → Commanded
  | .command (.updateMemoryDevice requestedKib), reply =>
      if reply.applied then { w with requestedBytes := requestedKib * bytesPerKib } else w
  | .command .suspend, .done => { w with running := false }
  | .command .suspend, .failed _ applied =>
      if applied then { w with running := false, unreported := true } else w
  | .command .resume, reply => if reply.applied then { w with running := true } else w
  | .compatibility, _ | .dumpxml, _ | .authorize, _ | .stopRequested, _ => w

/-- The automaton: the domain is resumed only with `requested` requested. -/
def law (requested : Nat) : Monitor Commanded SinkOp SinkAns where
  may w op := op = .command .resume → w.requestedBytes = requested
  next := next

end Commanded

/-- What the automaton knows of a domain. -/
def Domain.commanded (d : Domain) (unreported : Bool) : Commanded where
  requestedBytes := d.requestedBytes
  running := d.running
  unreported := unreported

/-- An unreported pause, as a fact about one event. -/
def pausesUnreported : Event SinkAns → Bool
  | ⟨.command .suspend, .failed _ applied⟩ => applied
  | _ => false

theorem pausedUnreported_iff {events : List (Event SinkAns)} :
    PausedUnreported events ↔ events.any pausesUnreported = true := by
  rw [List.any_eq_true]
  constructor
  · rintro ⟨error, hmem⟩
    exact ⟨_, hmem, rfl⟩
  · rintro ⟨event, hmem, hevent⟩
    unfold pausesUnreported at hevent
    split at hevent
    · subst hevent
      exact ⟨_, hmem⟩
    · cases hevent

theorem Domain.Moves.commanded {d d' : Domain} (h : d.Moves d') (unreported : Bool) :
    d'.commanded unreported = d.commanded unreported := by
  simp [Domain.commanded, h.1, h.2.1]

theorem Domain.next_commanded (d : Domain) (unreported : Bool) (op : SinkOp) (answer : SinkAns op) :
    (d.commanded unreported).next op answer =
      (d.next op answer).commanded (unreported || pausesUnreported ⟨op, answer⟩) := by
  cases op with
  | compatibility | dumpxml | authorize | stopRequested =>
      simp [Commanded.next, Domain.next, pausesUnreported]
  | command command =>
      cases command <;> rcases answer with _ | ⟨error, _ | _⟩ <;>
        simp [Commanded.next, Domain.next, Domain.apply, Domain.commanded, pausesUnreported,
          Reply.applied]

/-- **The automaton follows the domain**, whatever the guest does in between. -/
theorem Domain.Follows.commanded {d d' : Domain} {events : List (Event SinkAns)}
    (h : d.Follows events d') (requested : Nat) (unreported : Bool) :
    (Commanded.law requested).after (d.commanded unreported) events =
      d'.commanded (unreported || events.any pausesUnreported) := by
  induction h generalizing unreported with
  | done hmoves => simp [hmoves.commanded]
  | @event d d₁ d' op answer events hmoves _ ih =>
      rw [Monitor.after_cons, ← hmoves.commanded unreported]
      show (Commanded.law requested).after ((d₁.commanded unreported).next op answer) events = _
      rw [Domain.next_commanded, ih, List.any_cons, Bool.or_assoc]

/-! ## What each program leaves -/

section Programs

variable {α : Type} {requested : Nat} {w : Commanded} {command : DomainCommand} {target : Nat}
  {precondition : VirtioMemState → Except String Unit}

namespace VirshResizeSink

theorem safe_ask {op : SinkOp} {next : SinkAns op → SinkProg α} {Q : α → Commanded → Prop}
    (hmay : op = .command .resume → w.requestedBytes = requested)
    (h : ∀ answer, (next answer).Safe (Commanded.law requested) Q (w.next op answer)) :
    (ask op >>= next).Safe (Commanded.law requested) Q w :=
  ⟨hmay, h⟩

/-- What is prepared requests exactly the target. -/
theorem prepared_eq_ok {compatibility : VirtioMemCompatibility} {snapshot : VirtioMemSnapshot}
    (h : prepared compatibility snapshot target precondition = .ok command) :
    ∃ requestedKib, command = .updateMemoryDevice requestedKib ∧
      requestedKib * bytesPerKib = target := by
  obtain ⟨merged, -, h⟩ := bind_eq_ok.mp h
  obtain ⟨-, -, h⟩ := bind_eq_ok.mp h
  obtain ⟨-, -, h⟩ := bind_eq_ok.mp h
  obtain ⟨-, -, h⟩ := bind_eq_ok.mp h
  obtain ⟨requestedKib, hkib, h⟩ := bind_eq_ok.mp h
  cases h
  exact ⟨requestedKib, rfl, bytesToKibibytes_eq_some (okOr_eq_ok.mp hkib)⟩

/-- Preparing a command changes nothing. -/
theorem safe_prepare {next : Except String PreparedResize → SinkProg α}
    {Q : α → Commanded → Prop}
    (herror : ∀ error, (next (.error error)).Safe (Commanded.law requested) Q w)
    (hok : ∀ requestedKib, requestedKib * bytesPerKib = target →
      (next (.ok (.updateMemoryDevice requestedKib))).Safe (Commanded.law requested) Q w) :
    (prepare target precondition >>= next).Safe (Commanded.law requested) Q w := by
  refine Prog.safe_bind.mpr (safe_ask nofun ?_)
  rintro (error | compatibility)
  · exact herror error
  refine safe_ask nofun ?_
  rintro (error | snapshot)
  · exact herror error
  cases hprepared : prepared compatibility snapshot target precondition with
  | error error =>
      show (next (prepared compatibility snapshot target precondition)).Safe _ _ _
      rw [hprepared]
      exact herror error
  | ok command =>
      obtain ⟨requestedKib, rfl, htarget⟩ := prepared_eq_ok hprepared
      show (next (prepared compatibility snapshot target precondition)).Safe _ _ _
      rw [hprepared]
      exact hok requestedKib htarget

/-- A command that is not `resume`, by its three outcomes. -/
theorem safe_run {next : Except String Unit → SinkProg α} {Q : α → Commanded → Prop}
    (hmay : command = .resume → w.requestedBytes = requested)
    (h : ∀ reply : Reply,
      (next reply.report).Safe (Commanded.law requested) Q (w.next (.command command) reply)) :
    (run command >>= next).Safe (Commanded.law requested) Q w :=
  Prog.safe_bind.mpr (safe_ask (fun heq => hmay (SinkOp.command.inj heq)) fun reply => h reply)

end VirshResizeSink

/-- How an operation that began on the domain `before` ends. An unreported pause can only be answered
`rejected`. -/
def ResizeCall.Ends (call : ResizeCall) (before : Domain) :
    Except ResizeSinkError Unit → Commanded → Prop
  | .ok (), w => call.Achieved w.requestedBytes w.running ∧ w.unreported = false
  | .error (.rejected _), w =>
      w.requestedBytes = before.requestedBytes ∧ w.running = !w.unreported
  | .error (.commandUnknown _), w => w.unreported = false

namespace VirshResizeSink

variable {call : ResizeCall} {before : Domain} {expected : VirtioMemState} {requestedKib : Nat}
  {widen restore : PreparedResize}

/-- What a resize that was not stopped leaves is the target, or nothing is known. -/
theorem safe_applyUnlessStopped (hrunning : before.running = true)
    (hachieved : ∀ running, call.Achieved (requestedKib * bytesPerKib) running) :
    (applyUnlessStopped (.updateMemoryDevice requestedKib)).Safe (Commanded.law requested)
      (call.Ends before) (before.commanded false) := by
  refine safe_ask nofun ?_
  rintro (_ | _)
  · refine safe_run nofun ?_
    rintro (_ | ⟨error, applied⟩)
    · exact ⟨hachieved _, rfl⟩
    · show ((before.commanded false).next (.command (.updateMemoryDevice requestedKib))
        (.failed error applied)).unreported = false
      cases applied <;> rfl
  · exact ⟨rfl, hrunning⟩

theorem safe_requestResizeGuarded (hrunning : before.running = true) :
    (requestResizeGuarded expected target).Safe (Commanded.law requested)
      ((ResizeCall.requestResize expected target).Ends before) (before.commanded false) := by
  refine safe_prepare (fun _ => ⟨rfl, hrunning⟩) fun requestedKib hkib => safe_ask nofun ?_
  rintro (error | _)
  · exact ⟨rfl, hrunning⟩
  · exact safe_applyUnlessStopped hrunning fun _ => hkib

theorem safe_retargetPendingGuarded (hrunning : before.running = true) :
    (retargetPendingGuarded expected target).Safe (Commanded.law requested)
      ((ResizeCall.retargetPending expected target).Ends before) (before.commanded false) :=
  safe_prepare (fun _ => ⟨rfl, hrunning⟩) fun _ hkib =>
    safe_applyUnlessStopped hrunning fun _ => hkib

/-! The widening. Its update commands find the domain paused, by a pause that was reported. -/

/-- Paused by a `suspend` that was reported as done. -/
structure Paused (w : Commanded) : Prop where
  running : w.running = false
  unreported : w.unreported = false

theorem Paused.update (h : Paused w) (requestedKib : Nat) (reply : Reply) :
    Paused (w.next (.command (.updateMemoryDevice requestedKib)) reply) := by
  show Paused (if reply.applied then _ else _)
  split
  · exact ⟨h.running, h.unreported⟩
  · exact h

/-- Once the request is reported as restored, it is. -/
theorem safe_restoreRequested {next : Except String Unit → SinkProg α} {Q : α → Commanded → Prop}
    (hw : Paused w) (hkib : requestedKib * bytesPerKib = expected.requestedBytes)
    (herror : ∀ error w, Paused w → (next (.error error)).Safe (Commanded.law requested) Q w)
    (hok : ∀ w, Paused w → w.requestedBytes = expected.requestedBytes →
      (next (.ok ())).Safe (Commanded.law requested) Q w) :
    (restoreRequested expected (.updateMemoryDevice requestedKib) >>= next).Safe
      (Commanded.law requested) Q w := by
  refine Prog.safe_bind.mpr (safe_run nofun ?_)
  rintro (_ | ⟨error, applied⟩)
  · exact hok _ (hw.update requestedKib .done) hkib
  -- The first try failed, with or without effect: the second is prepared anew.
  have hw := hw.update requestedKib (.failed error applied)
  refine safe_prepare (fun error => herror error _ hw) fun requestedKib' hkib' => ?_
  refine Prog.safe_bind.mp ?_
  refine safe_run nofun ?_
  rintro (_ | ⟨error', applied'⟩)
  · exact hok _ (hw.update requestedKib' .done) hkib'
  · exact herror error' _ (hw.update requestedKib' (.failed error' applied'))

theorem widenOutcome_ends {widened : Except String Unit} {reply : Reply} (hw : Paused w)
    (hrequested : w.requestedBytes = expected.requestedBytes) :
    (ResizeCall.widenUsableRegion expected).Ends before (widenOutcome widened reply.report)
      (w.next (.command .resume) reply) := by
  rcases reply with _ | ⟨error, applied⟩
  · rcases widened with error | _
    · exact hw.unreported
    · exact ⟨⟨hrequested, rfl⟩, hw.unreported⟩
  · have hsame : (w.next (.command .resume) (.failed error applied)).unreported = false := by
      cases applied
      · exact hw.unreported
      · exact hw.unreported
    cases widened
    · exact hsame
    · exact hsame

theorem safe_widenPaused {widenKib restoreKib : Nat} (hw : Paused w)
    (hkib : restoreKib * bytesPerKib = expected.requestedBytes) :
    (widenPaused expected (.updateMemoryDevice widenKib) (.updateMemoryDevice restoreKib)).Safe
      (Commanded.law expected.requestedBytes)
      ((ResizeCall.widenUsableRegion expected).Ends before) w := by
  refine safe_run nofun fun widened => ?_
  refine safe_restoreRequested (hw.update widenKib widened) hkib ?_ ?_
  · exact fun _ _ hw => hw.unreported
  · intro w hw hrequested
    exact safe_run (fun _ => hrequested) fun reply => widenOutcome_ends hw hrequested

theorem safe_widenUsableRegionGuarded (hrunning : before.running = true) :
    (widenUsableRegionGuarded expected).Safe (Commanded.law expected.requestedBytes)
      ((ResizeCall.widenUsableRegion expected).Ends before) (before.commanded false) := by
  refine safe_prepare (fun _ => ⟨rfl, hrunning⟩) fun widenKib _ => ?_
  refine safe_prepare (fun _ => ⟨rfl, hrunning⟩) fun restoreKib hkib => safe_ask nofun ?_
  rintro (_ | _)
  · refine safe_run nofun ?_
    rintro (_ | ⟨error, _ | _⟩)
    · exact safe_widenPaused ⟨rfl, rfl⟩ hkib
    · exact ⟨rfl, hrunning⟩
    -- The unreported pause.
    · exact ⟨rfl, rfl⟩
  · exact ⟨rfl, hrunning⟩

end VirshResizeSink

end Programs

/-- Every operation, on a domain that runs. -/
theorem ResizeCall.safe (call : ResizeCall) {before : Domain} (hrunning : before.running = true) :
    call.program.Safe (Commanded.law call.expected.requestedBytes) (call.Ends before)
      (before.commanded false) := by
  cases call with
  | requestResize => exact VirshResizeSink.safe_requestResizeGuarded hrunning
  | retargetPending => exact VirshResizeSink.safe_retargetPendingGuarded hrunning
  | widenUsableRegion => exact VirshResizeSink.safe_widenUsableRegionGuarded hrunning

/-- **The domain is never resumed with the whole device left requested**, wherever the call is cut. -/
theorem ResizeCall.resumed (call : ResizeCall) {before d : Domain} (hrunning : before.running = true)
    {result : Option (Except ResizeSinkError Unit)} {first second : List (Event SinkAns)}
    {reply : Reply} (hrun : call.program.Runs (first ++ ⟨.command .resume, reply⟩ :: second) result)
    (hfollows : before.Follows first d) : d.requestedBytes = call.expected.requestedBytes := by
  have hacc := ((call.safe hrunning).accepts hrun).1
  rw [Monitor.accepts_append, hfollows.commanded] at hacc
  exact hacc.2.1 rfl

/-- **What a sink operation answers means what the controller takes it to mean exactly where no pause
went unreported.** A `suspend` that is reported to have failed is answered `rejected`, as if nothing
had been sent, whether or not the domain is paused by then. -/
theorem means_iff (call : ResizeCall) {before after : Domain} {events : List (Event SinkAns)}
    {answer : Except ResizeSinkError Unit} (hrunning : before.running = true)
    (hrun : call.program.Runs events (some answer)) (hfollows : before.Follows events after) :
    call.Means before events answer after ↔ ¬ PausedUnreported events := by
  have hends := ((call.safe hrunning).accepts hrun).2 answer rfl
  rw [hfollows.commanded, Bool.false_or] at hends
  rw [pausedUnreported_iff, Bool.not_eq_true]
  constructor
  · intro hmeans
    match answer, hends with
    | .ok (), hends => exact hends.2
    | .error (.rejected reason), hends =>
        have hsame : after.running = true := (hmeans.rejected reason rfl).2.trans hrunning
        simpa [Domain.commanded, hsame] using hends.2
    | .error (.commandUnknown _), hends => exact hends
  · intro hreported
    refine ⟨?_, ?_, ?_⟩
    · rintro reason rfl
      exact ⟨hends.1, by simpa [Domain.commanded, hreported, hrunning] using hends.2⟩
    · rintro rfl
      exact hends.1
    · rintro first reply second d rfl hfirst
      exact call.resumed hrunning hrun hfirst

/-! ## A widening -/

/-- An 8 GiB device of 2 MiB blocks with 4 GiB plugged. -/
def widenedDevice : VirtioMemState where
  sizeBytes := 2 ^ 33
  blockSizeBytes := 2 ^ 21
  requestedBytes := 2 ^ 32
  currentBytes := 2 ^ 32

def runningDomain : Domain where
  requestedBytes := 2 ^ 32
  currentBytes := 2 ^ 32
  running := true

/-- A `virsh` that does everything, except that `suspend` goes as given. -/
def virshWith (suspend : Reply) : Unit → (op : SinkOp) → SinkAns op × Unit
  | (), .compatibility => (.ok .confirmed, ())
  | (), .dumpxml => (.ok ⟨.confirmed, widenedDevice⟩, ())
  | (), .authorize => (.ok (), ())
  | (), .stopRequested => (false, ())
  | (), .command .suspend => (suspend, ())
  | (), .command _ => (.done, ())

def widenCall (suspend : Reply) : List (Event SinkAns) × Except ResizeSinkError Unit × Unit :=
  (ResizeCall.widenUsableRegion widenedDevice).program.simulate (virshWith suspend) ()

theorem widening_run (suspend : Reply) :
    (ResizeCall.widenUsableRegion widenedDevice).program.Runs (widenCall suspend).1
      (some (widenCall suspend).2.1) :=
  Prog.simulate_runs _ _ _

/-- A `suspend` that fails and has not paused the domain: the answer `rejected` means what it says. -/
theorem widening_means :
    (ResizeCall.widenUsableRegion widenedDevice).Means runningDomain
      (widenCall (.failed "domain is busy" false)).1 (widenCall (.failed "domain is busy" false)).2.1
      (runningDomain.after (widenCall (.failed "domain is busy" false)).1) := by
  have hreported : ¬ PausedUnreported (widenCall (.failed "domain is busy" false)).1 := by
    rw [pausedUnreported_iff]
    decide +kernel
  exact (means_iff _ rfl (widening_run _) (runningDomain.follows_after _)).mpr hreported

/-- A `suspend` that pauses the domain and then times out is answered `rejected`. -/
theorem widening_leaves_paused :
    ¬ ∀ (call : ResizeCall) (before after : Domain) (events : List (Event SinkAns))
        (answer : Except ResizeSinkError Unit), before.running = true →
        call.program.Runs events (some answer) → before.Follows events after →
        call.Means before events answer after := by
  intro h
  have hmeans := h _ runningDomain _ _ _ rfl
    (widening_run (.failed "virsh timed out after 10s" true)) (runningDomain.follows_after _)
  have hrunning := (hmeans.rejected "virsh timed out after 10s" rfl).2
  exact absurd hrunning (by decide +kernel)

end VirtioMem.Host
