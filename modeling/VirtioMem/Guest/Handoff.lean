import VirtioMem.Guest.Watermark

/-!
# How the service replaces its files

The worker makes its request state durable and then publishes. Both replace a file through a temporary
one and a rename, and both look at the stop signal on the way: a cancelled replacement abandons the
rename and reports success. This module is the code behind the two operations `persist` and `publish`
of the worker, with every reading of the stop signal an operation of its own, so that a stop may fall
between any two of them.

`Handoff.carryOut` carries out the worker's operations by these programs. Every one of them does what
`guestLaw` says of the operation (`carryOut_safe`), so the worker that replaces its files this way
keeps the protocol of the files themselves: in every run, whatever fails and wherever it is cut, a
request that is renamed into the publication stands in the durable request state at that moment
(`published_durable`).
-/

namespace VirtioMem.Guest

open VirtioMem.Core VirtioMem.Effect

/-- A file of the service together with what it is to hold. -/
inductive Handoff where
  | requestState (state : GuestRequestState)
  | publication (envelope : RawTelemetryEnvelope)

/-- What a rename came to. It replaces the file whole or not at all, but a failure may be reported
after it has. -/
inductive Renamed where
  | done
  | failed (osError : Option Nat) (error : String) (moved : Bool)

def Renamed.moved : Renamed → Bool
  | .done => true
  | .failed _ _ moved => moved

inductive ServiceOp where
  /-- What the worker asks besides. -/
  | worker (op : WorkerOp)
  | isCancelled
  /-- Encode a record and hold it against its byte limit. -/
  | encode (envelope : RawTelemetryEnvelope)
  | createParent (path : String)
  | openTemporary (path : String)
  | writeTemporary (path : String) (file : Handoff)
  | syncTemporary (path : String)
  | removeTemporary (path : String)
  | deadline
  | beforeDeadline
  | waitRetry
  /-- Rename the temporary file, complete by then, over the file. -/
  | rename (file : Handoff)

abbrev ServiceAns : ServiceOp → Type
  | .worker op => WorkerAns op
  | .isCancelled => Bool
  | .encode _ => Except String Unit
  | .createParent _ => Except String Unit
  | .openTemporary _ => Except String Unit
  | .writeTemporary _ _ => Except String Unit
  | .syncTemporary _ => Except String Unit
  | .removeTemporary _ => Unit
  | .deadline => Except String Unit
  | .beforeDeadline => Bool
  | .waitRetry => Unit
  | .rename _ => Renamed

abbrev ServiceProg (α : Type) : Type := Prog ServiceOp ServiceAns α

namespace Handoff

def ask (op : ServiceOp) : ServiceProg (ServiceAns op) := .perform op .pure

/-- A sharing violation, a lock violation, or the access denied that a reader causes. -/
def isTransient (osError : Option Nat) : Bool :=
  osError == some 5 || osError == some 32 || osError == some 33

/-- One attempt to rename, and whether another is due. What a `Replaced` says about the file is for
its reader alone; the service does not get to see it. -/
def attemptReplace (file : Handoff) : ServiceProg (Replaced × Bool) := do
  if ← ask .isCancelled then return (⟨false, .error "publication cancelled"⟩, false)
  else
    match ← ask (.rename file) with
    | .done => return (⟨true, .ok ()⟩, false)
    | .failed osError error applied =>
      let again ← if isTransient osError then ask .beforeDeadline else pure false
      return (⟨applied, .error error⟩, again)

/-- Rename until it succeeds, fails for good, the deadline passes or the service is stopped. The
deadline leaves time for some number of repetitions. -/
def retryAtomicReplace (file : Handoff) : (repetitions : Nat) → (written : Bool) →
    ServiceProg Replaced
  | 0, written => do
    let (replaced, _) ← attemptReplace file
    return { replaced with written := written || replaced.written }
  | repetitions + 1, written => do
    let (replaced, again) ← attemptReplace file
    if again then
      ask .waitRetry
      retryAtomicReplace file repetitions (written || replaced.written)
    else return { replaced with written := written || replaced.written }

def atomicReplace (file : Handoff) (repetitions : Nat) : ServiceProg Replaced := do
  match ← ask .deadline with
  | .error error => return ⟨false, .error error⟩
  | .ok () => retryAtomicReplace file repetitions false

/-- Write the temporary file and rename it. -/
def writeAndReplace (path : String) (file : Handoff) (durable : Bool) (repetitions : Nat) :
    ServiceProg Replaced := do
  match ← ask (.openTemporary path) with
  | .error error => return ⟨false, .error ("open handoff: " ++ error)⟩
  | .ok () =>
    match ← ask (.writeTemporary path file) with
    | .error error => return ⟨false, .error ("write handoff: " ++ error)⟩
    | .ok () =>
      match ← (if durable then ask (.syncTemporary path) else pure (.ok ())) with
      | .error error => return ⟨false, .error ("flush handoff: " ++ error)⟩
      | .ok () =>
        let replaced ← atomicReplace file repetitions
        return { replaced with result := labelled ("replace " ++ path) replaced.result }

/-- Replace a file through a temporary one, so that readers see the old or the new contents whole.
Cancellation abandons the replacement and reports success. -/
def replaceFile (path : String) (file : Handoff) (durable : Bool) (repetitions : Nat) :
    ServiceProg Replaced := do
  match ← ask (.createParent path) with
  | .error error => return ⟨false, .error error⟩
  | .ok () =>
    let replaced ← writeAndReplace path file durable repetitions
    let abandoned ← match replaced.result with
      | .error _ => pure true
      | .ok () => ask .isCancelled
    if abandoned then ask (.removeTemporary path)
    if ← ask .isCancelled then return { replaced with result := .ok () }
    else return replaced

/-- Publish one record; a cancelled service publishes nothing. -/
def publish (path : String) (envelope : RawTelemetryEnvelope) (repetitions : Nat) :
    ServiceProg Replaced := do
  if ← ask .isCancelled then return ⟨false, .ok ()⟩
  else
    match ← ask (.encode envelope) with
    | .error error => return ⟨false, .error error⟩
    | .ok () =>
      let replaced ← replaceFile path (.publication envelope) false repetitions
      return { replaced with result := labelled "publish raw telemetry handoff" replaced.result }

def requestStatePath (publicationPath : String) : String := publicationPath ++ ".request-state"

/-- The worker's operations, carried out on files. -/
def carryOut (publicationPath : String) (repetitions : Nat) :
    (op : WorkerOp) → ServiceProg (WorkerAns op)
  | .persist state =>
      replaceFile (requestStatePath publicationPath) (.requestState state) true repetitions
  | .publish envelope => publish publicationPath envelope repetitions
  | .collect => ask (.worker .collect)
  | .nowUnixMillis => ask (.worker .nowUnixMillis)
  | .monotonicMillis => ask (.worker .monotonicMillis)
  | .nativePressure => ask (.worker .nativePressure)
  | .readStatus => ask (.worker .readStatus)

end Handoff

/-! ## The files -/

/-- The files of the service and its stop signal. -/
structure ServiceFiles where
  requestState : GuestRequestState
  publication : Option RawTelemetryEnvelope
  /-- The signal was seen cancelled. -/
  cancelled : Bool
  /-- The signal was never seen cancelled and later not cancelled. -/
  lawful : Bool

namespace ServiceFiles

/-- What renaming a file over its destination leaves. -/
def put (w : ServiceFiles) : Handoff → ServiceFiles
  | .requestState state => { w with requestState := state }
  | .publication envelope => { w with publication := some envelope }

def next (w : ServiceFiles) : (op : ServiceOp) → ServiceAns op → ServiceFiles
  | .isCancelled, answer =>
      { w with cancelled := w.cancelled || answer, lawful := w.lawful && (!w.cancelled || answer) }
  | .rename file, renamed => if renamed.moved then w.put file else w
  | .worker _, _ | .encode _, _ | .createParent _, _ | .openTemporary _, _ | .writeTemporary _ _, _
  | .syncTemporary _, _ | .removeTemporary _, _ | .deadline, _ | .beforeDeadline, _
  | .waitRetry, _ => w

/-- A file may replace its destination: what is published is durable. -/
def Allows (w : ServiceFiles) : Handoff → Prop
  | .requestState _ => True
  | .publication envelope =>
      ∀ request, envelope.request = some request → w.requestState.pending = some request

end ServiceFiles

/-- The protocol of the files. After a signal that takes a stop back nothing is asked any more. -/
def filesLaw : Monitor ServiceFiles ServiceOp ServiceAns where
  may w op := w.lawful = false ∨ ∀ file, op = .rename file → w.Allows file
  next := ServiceFiles.next

/-! ## What a replacement does -/

namespace Handoff

variable {w₀ w : ServiceFiles} {file : Handoff} {written : Bool} {α : Type}

/-- Where a replacement of `file` that began in `w₀` has got to: the request state is as it was, or
replaced; and a service that was stopped before has replaced nothing. -/
structure Along (w₀ : ServiceFiles) (file : Handoff) (written : Bool) (w : ServiceFiles) : Prop where
  began : w₀.lawful = true
  requestState : w.requestState =
    if written then (w₀.put file).requestState else w₀.requestState
  cancelled : w₀.cancelled = true → w.cancelled = true ∧ written = false

/-- The same, or the signal has broken its promise. -/
def Reaches (w₀ : ServiceFiles) (file : Handoff) (written : Bool) (w : ServiceFiles) : Prop :=
  w.lawful = false ∨ Along w₀ file written w

/-- An operation other than a rename or a look at the signal. -/
theorem safe_ask {op : ServiceOp} {next : ServiceAns op → ServiceProg α} {Q : α → ServiceFiles → Prop}
    (hrename : ∀ file, op ≠ .rename file) (hstop : op ≠ .isCancelled)
    (h : ∀ answer, (next answer).Safe filesLaw Q w) : (ask op >>= next).Safe filesLaw Q w := by
  refine ⟨.inr fun file heq => absurd heq (hrename file), fun answer => ?_⟩
  have hsame : filesLaw.next w op answer = w := by
    cases op with
    | isCancelled => exact absurd rfl hstop
    | rename file => exact absurd rfl (hrename file)
    | worker | encode | createParent | openTemporary | writeTemporary | syncTemporary
    | removeTemporary | deadline | beforeDeadline | waitRetry => rfl
  show (next answer).Safe filesLaw Q (filesLaw.next w op answer)
  rw [hsame]
  exact h answer

/-- A look at the signal. Once it was seen cancelled it is not seen otherwise. -/
theorem safe_isCancelled {next : Bool → ServiceProg α} {Q : α → ServiceFiles → Prop}
    (h : Reaches w₀ file written w)
    (hnext : ∀ answer w', Reaches w₀ file written w' →
      (answer = false → w'.lawful = false ∨ w₀.cancelled = false) →
      (answer = true → w'.lawful = false ∨ w'.cancelled = true) →
      (next answer).Safe filesLaw Q w') :
    (ask .isCancelled >>= next).Safe filesLaw Q w := by
  refine ⟨.inr fun _ heq => (nomatch heq), fun answer => hnext answer _ ?_ ?_ ?_⟩
  · rcases h with hbroken | h
    · exact .inl (by simp [filesLaw, ServiceFiles.next, hbroken])
    · refine .inr ⟨h.began, h.requestState, fun hcancelled => ⟨?_, (h.cancelled hcancelled).2⟩⟩
      simp [filesLaw, ServiceFiles.next, (h.cancelled hcancelled).1]
  · rintro rfl
    rcases h with hbroken | h
    · exact .inl (by simp [filesLaw, ServiceFiles.next, hbroken])
    · cases hcancelled : w₀.cancelled with
      | false => exact .inr rfl
      | true =>
          left
          simp [filesLaw, ServiceFiles.next, (h.cancelled hcancelled).1]
  · rintro rfl
    exact .inr (by simp [filesLaw, ServiceFiles.next])

/-- A rename that is allowed at the start is allowed all along: only the file itself is replaced. -/
theorem Along.allows (h : Along w₀ file written w) (hallows : w₀.Allows file) : w.Allows file := by
  cases file with
  | requestState => trivial
  | publication envelope =>
      intro request hrequest
      rw [h.requestState]
      split <;> exact hallows request hrequest

theorem Along.renamed (h : Along w₀ file written w) (hrunning : w₀.cancelled = false)
    (moved : Bool) : Along w₀ file (written || moved) (if moved then w.put file else w) := by
  refine ⟨h.began, ?_, fun hcancelled => absurd hcancelled (by simp [hrunning])⟩
  cases moved with
  | false => simpa using h.requestState
  | true =>
      cases file with
      | requestState state => simp [ServiceFiles.put]
      | publication envelope => simpa [ServiceFiles.put] using h.requestState

/-- A rename, where the signal was seen not cancelled since. -/
theorem safe_rename {next : Renamed → ServiceProg α} {Q : α → ServiceFiles → Prop}
    (h : Reaches w₀ file written w) (hrunning : w.lawful = false ∨ w₀.cancelled = false)
    (hallows : w₀.lawful = true → w₀.cancelled = false → w₀.Allows file)
    (hnext : ∀ renamed w', Reaches w₀ file (written || renamed.moved) w' →
      (next renamed).Safe filesLaw Q w') :
    (ask (.rename file) >>= next).Safe filesLaw Q w := by
  have hlawful : (w.put file).lawful = w.lawful := by cases file <;> rfl
  constructor
  · rcases h with hbroken | h
    · exact .inl hbroken
    rcases hrunning with hbroken | hrunning
    · exact .inl hbroken
    refine .inr ?_
    rintro _ ⟨⟩
    exact h.allows (hallows h.began hrunning)
  · intro renamed
    refine hnext renamed _ ?_
    show Reaches w₀ file _ (if renamed.moved then w.put file else w)
    have hsame : (if renamed.moved then w.put file else w).lawful = w.lawful := by
      split
      · exact hlawful
      · rfl
    rcases h with hbroken | h
    · exact .inl (hsame.trans hbroken)
    rcases hrunning with hbroken | hrunning
    · exact .inl (hsame.trans hbroken)
    exact .inr (h.renamed hrunning renamed.moved)

/-- How a replacement ends: a success has replaced the file, unless the service was stopped. -/
def Replaces (w₀ : ServiceFiles) (file : Handoff) (replaced : Replaced) (w : ServiceFiles) : Prop :=
  Reaches w₀ file replaced.written w ∧ (replaced.result = .ok () → replaced.written = true)

/-- One attempt adds what it has replaced to what was replaced before. -/
theorem safe_attemptReplace {next : Replaced × Bool → ServiceProg α} {Q : α → ServiceFiles → Prop}
    (h : Reaches w₀ file written w) (hallows : w₀.lawful = true → w₀.cancelled = false → w₀.Allows file)
    (hnext : ∀ replaced again w', Reaches w₀ file (written || replaced.written) w' →
      (replaced.result = .ok () → replaced.written = true) →
      (next (replaced, again)).Safe filesLaw Q w') :
    (attemptReplace file >>= next).Safe filesLaw Q w := by
  refine Prog.safe_bind.mpr (safe_isCancelled h fun stopped w h hrunning _ => ?_)
  cases stopped with
  | true => exact hnext _ _ w (by simpa using h) nofun
  | false =>
      refine safe_rename h (hrunning rfl) hallows fun renamed w h => ?_
      cases renamed with
      | done => exact hnext _ _ w h fun _ => rfl
      | failed osError error applied =>
          show Prog.Safe filesLaw (if isTransient osError then _ else _) _ w
          split
          · exact safe_ask nofun nofun fun again => hnext _ _ w h nofun
          · exact hnext _ _ w h nofun

theorem safe_retryAtomicReplace (hallows : w₀.lawful = true → w₀.cancelled = false → w₀.Allows file)
    (repetitions : Nat) : ∀ {written : Bool} {w : ServiceFiles}, Reaches w₀ file written w →
      (retryAtomicReplace file repetitions written).Safe filesLaw (Replaces w₀ file) w := by
  have hends : ∀ {written : Bool} {replaced : Replaced} {w : ServiceFiles},
      Reaches w₀ file (written || replaced.written) w →
      (replaced.result = .ok () → replaced.written = true) →
      Replaces w₀ file { replaced with written := written || replaced.written } w := by
    intro written replaced w h hok
    exact ⟨h, fun hresult => by simp [hok hresult]⟩
  -- Every repetition starts where the one before has left the file.
  induction repetitions with
  | zero =>
      intro written w h
      exact safe_attemptReplace h hallows fun _ _ _ h hok => hends h hok
  | succ repetitions ih =>
      intro written w h
      refine safe_attemptReplace h hallows fun replaced again w h hok => ?_
      cases again with
      | false => exact hends h hok
      | true => exact safe_ask nofun nofun fun _ => ih h

theorem Replaces.labelled {replaced : Replaced} {label : String} (h : Replaces w₀ file replaced w) :
    Replaces w₀ file { replaced with result := Guest.labelled label replaced.result } w :=
  ⟨h.1, fun hok => h.2 (Result.mapError_eq_ok.mp hok)⟩

theorem safe_writeAndReplace {path : String} {durable : Bool} {repetitions : Nat}
    (hallows : w₀.lawful = true → w₀.cancelled = false → w₀.Allows file) (h : Reaches w₀ file false w) :
    (writeAndReplace path file durable repetitions).Safe filesLaw (Replaces w₀ file) w := by
  refine safe_ask nofun nofun ?_
  rintro (error | _)
  · exact ⟨h, nofun⟩
  refine safe_ask nofun nofun ?_
  rintro (error | _)
  · exact ⟨h, nofun⟩
  have hreplace : (atomicReplace file repetitions).Safe filesLaw (Replaces w₀ file) w := by
    refine safe_ask nofun nofun ?_
    rintro (error | _)
    · exact ⟨h, nofun⟩
    · exact safe_retryAtomicReplace hallows repetitions h
  have hrest : (atomicReplace file repetitions >>= fun replaced => pure
      { replaced with result := Guest.labelled ("replace " ++ path) replaced.result }).Safe filesLaw
        (Replaces w₀ file) w :=
    Prog.safe_bind.mpr (hreplace.mono fun _ _ h => h.labelled)
  cases durable with
  | false => exact hrest
  | true =>
      refine safe_ask nofun nofun ?_
      rintro (error | _)
      · exact ⟨h, nofun⟩
      · exact hrest

/-- What a replacement that is over comes to: a success has replaced the file or was cancelled. -/
def Settles (w₀ : ServiceFiles) (file : Handoff) (replaced : Replaced) (w : ServiceFiles) : Prop :=
  Reaches w₀ file replaced.written w ∧
    (replaced.result = .ok () → replaced.written = false → w.lawful = false ∨ w.cancelled = true)

theorem safe_replaceFile {path : String} {durable : Bool} {repetitions : Nat}
    (hallows : w₀.lawful = true → w₀.cancelled = false → w₀.Allows file) (h : Reaches w₀ file false w) :
    (replaceFile path file durable repetitions).Safe filesLaw (Settles w₀ file) w := by
  refine safe_ask nofun nofun ?_
  rintro (error | _)
  · exact ⟨h, nofun⟩
  refine Prog.safe_bind.mpr ((safe_writeAndReplace hallows h).mono ?_)
  rintro ⟨written, result⟩ w ⟨h, hok⟩
  -- The last look at the signal decides what is reported.
  have hreport : ∀ w, Reaches w₀ file written w →
      (ask .isCancelled >>= fun stopped => if stopped = true then
        (pure { written := written, result := .ok () } : ServiceProg Replaced)
        else pure { written := written, result := result }).Safe filesLaw (Settles w₀ file) w := by
    intro w h
    refine safe_isCancelled h fun stopped w h _ hstopped => ?_
    cases stopped with
    | true => exact ⟨h, fun _ _ => hstopped rfl⟩
    | false =>
        refine ⟨h, fun hresult hunwritten => ?_⟩
        rw [show written = true from hok hresult] at hunwritten
        cases hunwritten
  cases result with
  | error error => exact safe_ask nofun nofun fun _ => hreport w h
  | ok _ =>
      refine safe_isCancelled h fun stopped w h _ _ => ?_
      cases stopped with
      | true => exact safe_ask nofun nofun fun _ => hreport w h
      | false => exact hreport w h

theorem safe_publish {path : String} {envelope : RawTelemetryEnvelope} {repetitions : Nat}
    (hallows : w₀.lawful = true → w₀.cancelled = false → w₀.Allows (.publication envelope))
    (h : Reaches w₀ (.publication envelope) false w) :
    (publish path envelope repetitions).Safe filesLaw
      (fun replaced => Reaches w₀ (.publication envelope) replaced.written) w := by
  refine safe_isCancelled h fun stopped w h _ _ => ?_
  cases stopped with
  | true => exact h
  | false =>
      refine safe_ask nofun nofun ?_
      rintro (error | _)
      · exact h
      · exact Prog.safe_bind.mpr ((safe_replaceFile hallows h).mono fun _ _ h => h.1)

end Handoff

/-! ## The worker on its files -/

/-- The files are those the worker's world speaks of. -/
def Represents (g : GuestWorld) (w : ServiceFiles) : Prop :=
  w.lawful = false ∨ (g.disk = w.requestState ∧ (g.cancelled = true → w.cancelled = true))

open Handoff in
/-- **Refinement.** Carried out on the files, every operation the worker may ask for does what the
worker's world says. -/
theorem carryOut_safe {path : String} {repetitions : Nat} (g : GuestWorld) (w : ServiceFiles)
    (op : WorkerOp) (h : Represents g w) (hmay : guestLaw.may g op) :
    (carryOut path repetitions op).Safe filesLaw
      (fun answer w => Represents (guestLaw.next g op answer) w) w := by
  have hstart : ∀ file, Reaches w file false w := by
    intro file
    cases hlawful : w.lawful with
    | false => exact .inl hlawful
    | true => exact .inr ⟨hlawful, rfl, fun h => ⟨h, rfl⟩⟩
  have hagree : w.lawful = true → g.disk = w.requestState ∧
      (g.cancelled = true → w.cancelled = true) := by
    intro hlawful
    exact h.resolve_left (by simp [hlawful])
  -- Only the two operations that write anything need an argument.
  cases op with
  | persist state =>
      refine (safe_replaceFile (fun _ _ => by trivial) (hstart (.requestState state))).mono ?_
      rintro ⟨written, result⟩ w' ⟨hbroken | halong, hsettles⟩
      · exact .inl hbroken
      obtain ⟨hdisk, hcancelled⟩ := hagree halong.began
      show Represents (g.persist state ⟨written, result⟩) w'
      unfold GuestWorld.persist
      by_cases hstopped : g.cancelled = true
      · rw [if_pos hstopped]
        obtain ⟨hstopped', rfl⟩ := halong.cancelled (hcancelled hstopped)
        exact .inr ⟨hdisk.trans halong.requestState.symm, fun _ => hstopped'⟩
      rw [if_neg hstopped]
      cases written with
      | true => exact .inr ⟨halong.requestState.symm, fun h => absurd h hstopped⟩
      | false =>
          cases result with
          | error error => exact .inr ⟨hdisk.trans halong.requestState.symm, nofun⟩
          | ok _ =>
              rcases hsettles rfl rfl with hbroken | hstopped'
              · exact .inl hbroken
              · exact .inr ⟨hdisk.trans halong.requestState.symm, fun _ => hstopped'⟩
  | publish envelope =>
      -- A request may be published once it is the one on disk.
      have hallows : w.lawful = true → w.cancelled = false →
          w.Allows (.publication envelope) := by
        intro hlawful hrunning request hrequest
        obtain ⟨hdisk, hcancelled⟩ := hagree hlawful
        rcases hmay with hstopped | hmay
        · rw [hcancelled hstopped] at hrunning
          cases hrunning
        · exact hdisk ▸ hmay request hrequest
      refine (safe_publish hallows (hstart _)).mono ?_
      rintro replaced w' (hbroken | halong)
      · exact .inl hbroken
      obtain ⟨hdisk, hcancelled⟩ := hagree halong.began
      have hstate : w'.requestState = w.requestState := by
        rw [halong.requestState]
        split <;> rfl
      have hsame : (g.publish envelope replaced).disk = g.disk ∧
          (g.publish envelope replaced).cancelled = g.cancelled := by
        unfold GuestWorld.publish
        split <;> exact ⟨rfl, rfl⟩
      refine .inr ⟨hsame.1.trans (hdisk.trans hstate.symm), fun hstopped => ?_⟩
      exact (halong.cancelled (hcancelled (hsame.2 ▸ hstopped))).1
  | collect => exact safe_ask nofun nofun fun _ => h
  | nowUnixMillis => exact safe_ask nofun nofun fun _ => h
  | monotonicMillis => exact safe_ask nofun nofun fun _ => h
  | nativePressure => exact safe_ask nofun nofun fun _ => h
  | readStatus => exact safe_ask nofun nofun fun _ => h

/-! ## Runs of the service on its files -/

/-- One event of the service, or a new process with a stop signal of its own. -/
inductive FileLabel where
  | started
  | service (event : Event ServiceAns)

namespace ServiceFiles

/-- No service has run yet. -/
def initial : ServiceFiles where
  requestState := .initial
  publication := none
  cancelled := false
  lawful := true

def step (w : ServiceFiles) : FileLabel → ServiceFiles
  | .started => { w with cancelled := false }
  | .service event => w.next event.1 event.2

def after (labels : List FileLabel) : ServiceFiles := labels.foldl step initial

end ServiceFiles

/-- What an event says about the stop signal. -/
def seenCancelled : Event ServiceAns → Option Bool
  | ⟨.isCancelled, answer⟩ => some answer
  | _ => none

/-- A process that has seen its stop signal cancelled never sees it otherwise. -/
def KeepsStop : (stopped : Bool) → List FileLabel → Prop
  | _, [] => True
  | _, .started :: labels => KeepsStop false labels
  | stopped, .service event :: labels =>
      (stopped = true → seenCancelled event ≠ some false) ∧
        KeepsStop (stopped || seenCancelled event == some true) labels

/-- **Every run of the service on its files.** A process starts from the request state on disk, polls,
and ends with an error, a stop or a crash at any point. -/
inductive FileRun (vm service path : String) :
    List FileLabel → Option GuestMemoryWorker → Prop
  | fresh : FileRun vm service path [] none
  | start {labels : List FileLabel} {process : Option GuestMemoryWorker} {session : String}
      {policy : GuestMemoryPolicy} {requester : GuestRequester} (minRam maxRam : Nat)
      (h : FileRun vm service path labels process)
      (hnew : GuestRequester.new policy vm service session
        (ServiceFiles.after labels).requestState = .ok requester) :
      FileRun vm service path (labels ++ [.started])
        (some (.new (requester.setRamLimits minRam maxRam).2))
  | poll {labels : List FileLabel} {self : GuestMemoryWorker} {next : Option GuestMemoryWorker}
      {repetitions : Nat} {events : List (Event ServiceAns)}
      (h : FileRun vm service path labels (some self))
      (hruns : (self.pollOrRetry.interpret (Handoff.carryOut path repetitions)).Runs events
        (some next)) :
      FileRun vm service path (labels ++ events.map .service) next
  | crash {labels : List FileLabel} {self : GuestMemoryWorker} {repetitions : Nat}
      {events : List (Event ServiceAns)} (h : FileRun vm service path labels (some self))
      (hruns : (self.pollOrRetry.interpret (Handoff.carryOut path repetitions)).Runs events none) :
      FileRun vm service path (labels ++ events.map .service) none

/-- Every operation of the labels was allowed where it was sent. -/
def FilesAccept : ServiceFiles → List FileLabel → Prop
  | _, [] => True
  | w, .started :: labels => FilesAccept (w.step .started) labels
  | w, .service event :: labels => filesLaw.may w event.1 ∧ FilesAccept (w.step (.service event)) labels

theorem filesAccept_append {w : ServiceFiles} {first second : List FileLabel} :
    FilesAccept w (first ++ second) ↔
      FilesAccept w first ∧ FilesAccept (first.foldl ServiceFiles.step w) second := by
  induction first generalizing w with
  | nil => simp [FilesAccept]
  | cons label first ih => cases label <;> simp [FilesAccept, ih, and_assoc]

theorem filesAccept_events {w : ServiceFiles} {events : List (Event ServiceAns)}
    (h : filesLaw.Accepts w events) : FilesAccept w (events.map .service) := by
  induction events generalizing w with
  | nil => trivial
  | cons event events ih => exact ⟨h.1, ih h.2⟩

theorem after_events {labels : List FileLabel} {events : List (Event ServiceAns)} :
    ServiceFiles.after (labels ++ events.map .service) =
      filesLaw.after (ServiceFiles.after labels) events := by
  simp only [ServiceFiles.after, List.foldl_append, List.foldl_map]
  rfl

theorem next_signal (w : ServiceFiles) (event : Event ServiceAns) :
    (w.next event.1 event.2).cancelled = (w.cancelled || seenCancelled event == some true) ∧
      (w.next event.1 event.2).lawful =
        (w.lawful && !(w.cancelled && seenCancelled event == some false)) := by
  obtain ⟨op, answer⟩ := event
  cases op with
  | isCancelled =>
      cases hcancelled : w.cancelled <;> cases answer <;>
        simp [ServiceFiles.next, seenCancelled, hcancelled]
  | rename file =>
      have hput : (w.put file).cancelled = w.cancelled ∧ (w.put file).lawful = w.lawful := by
        cases file <;> exact ⟨rfl, rfl⟩
      simp only [ServiceFiles.next, seenCancelled]
      split
      · simp [hput]
      · simp
  | worker | encode | createParent | openTemporary | writeTemporary | syncTemporary
  | removeTemporary | deadline | beforeDeadline | waitRetry =>
      simp [ServiceFiles.next, seenCancelled]

/-- A signal that keeps its promise leaves the files lawful. -/
theorem KeepsStop.lawful {w : ServiceFiles} {labels : List FileLabel}
    (h : KeepsStop w.cancelled labels) (hlawful : w.lawful = true) :
    (labels.foldl ServiceFiles.step w).lawful = true := by
  induction labels generalizing w with
  | nil => exact hlawful
  | cons label labels ih =>
      rw [List.foldl_cons]
      cases label with
      | started => exact ih h hlawful
      | service event =>
          obtain ⟨hcancelled, hnext⟩ := next_signal w event
          apply ih
          · show KeepsStop (w.next event.1 event.2).cancelled labels
            rw [hcancelled]
            exact h.2
          · show (w.next event.1 event.2).lawful = true
            rw [hnext, hlawful]
            cases hstopped : w.cancelled with
            | false => rfl
            | true => simpa using h.1 hstopped

theorem KeepsStop.prefix {stopped : Bool} {first second : List FileLabel}
    (h : KeepsStop stopped (first ++ second)) : KeepsStop stopped first := by
  induction first generalizing stopped with
  | nil => trivial
  | cons label first ih =>
      cases label with
      | started => exact @ih false h
      | service event => exact ⟨h.1, ih h.2⟩

/-- Where nobody stops the service, the signal keeps its promise. -/
theorem keepsStop_running {events : List (Event ServiceAns)}
    (h : events.all (fun event => seenCancelled event != some true) = true) :
    KeepsStop false (events.map .service) := by
  induction events with
  | nil => trivial
  | cons event events ih =>
      simp only [List.all_cons, Bool.and_eq_true, bne_iff_ne] at h
      refine ⟨nofun, ?_⟩
      rw [beq_eq_false_iff_ne.mpr h.1]
      exact ih h.2

/-- Along a run every operation is allowed, and a running process agrees with some world that its
files represent. -/
theorem fileRun_inv {vm service path : String} {labels : List FileLabel}
    {process : Option GuestMemoryWorker} (h : FileRun vm service path labels process) :
    FilesAccept .initial labels ∧ ∀ self, process = some self →
      ∃ g, Coupled self g ∧ Represents g (ServiceFiles.after labels) := by
  have hpoll : ∀ {labels self repetitions events result},
      (FilesAccept .initial labels ∧ ∀ self', some self = some self' →
        ∃ g, Coupled self' g ∧ Represents g (ServiceFiles.after labels)) →
      (self.pollOrRetry.interpret (Handoff.carryOut path repetitions)).Runs events result →
      FilesAccept .initial (labels ++ events.map .service) ∧ ∀ next self, result = some next →
        next = some self → ∃ g, Coupled self g ∧
          Represents g (ServiceFiles.after (labels ++ events.map .service)) := by
    rintro labels self repetitions events result ⟨haccept, hprocess⟩ hruns
    obtain ⟨g, hcoupled, hrepresents⟩ := hprocess self rfl
    have hsafe := (pollOrRetry_safe hcoupled).interpret Represents
      (@carryOut_safe path repetitions) hrepresents
    obtain ⟨haccepts, hpost⟩ := hsafe.accepts hruns
    refine ⟨filesAccept_append.mpr ⟨haccept, filesAccept_events haccepts⟩, ?_⟩
    rintro next self rfl rfl
    obtain ⟨g, hrepresents, hcoupled⟩ := hpost _ rfl
    exact ⟨g, hcoupled self rfl, after_events ▸ hrepresents⟩
  induction h with
  | fresh => exact ⟨trivial, nofun⟩
  | @start labels process session policy requester minRam maxRam _ hnew ih =>
      refine ⟨filesAccept_append.mpr ⟨ih.1, trivial⟩, ?_⟩
      rintro _ ⟨⟩
      obtain ⟨-, -, -, hsession, hstate, -, -, -⟩ := GuestRequester.new_eq_ok hnew
      refine ⟨⟨(ServiceFiles.after labels).requestState, [], [], [session], session, 0, false⟩,
        .inr ⟨hstate, hsession, Nat.zero_le _⟩, .inr ⟨?_, nofun⟩⟩
      simp [ServiceFiles.after, ServiceFiles.step]
  | poll _ hruns ih =>
      obtain ⟨haccept, hprocess⟩ := hpoll ih hruns
      exact ⟨haccept, fun self hnext => hprocess _ self rfl hnext⟩
  | crash _ hruns ih => exact ⟨(hpoll ih hruns).1, nofun⟩

/-- **No request is published before it is durable.** In every run, whatever fails and wherever a stop
or a crash falls, an envelope that is renamed over the publication carries no request but the one
pending in the durable request state at that moment. -/
theorem published_durable {vm service path : String} {labels before later : List FileLabel}
    {process : Option GuestMemoryWorker} (h : FileRun vm service path labels process)
    (hstop : KeepsStop false labels) {envelope : RawTelemetryEnvelope} {renamed : Renamed}
    (hlabels : labels = before ++ .service ⟨.rename (.publication envelope), renamed⟩ :: later)
    {request : MemoryRequest} (hrequest : envelope.request = some request) :
    (ServiceFiles.after before).requestState.pending = some request := by
  have haccept := (fileRun_inv h).1
  rw [hlabels] at haccept hstop
  have hlawful : (ServiceFiles.after before).lawful = true :=
    (show KeepsStop ServiceFiles.initial.cancelled before from hstop.prefix).lawful rfl
  rcases (filesAccept_append.mp haccept).2.1 with hbroken | hallows
  · rw [show (before.foldl ServiceFiles.step .initial).lawful = true from hlawful] at hbroken
    cases hbroken
  · exact hallows _ rfl request hrequest

/-! ## One request on its way through the files -/

/-- Nothing fails and nobody stops the service. -/
def exampleService (_ : Unit) : (op : ServiceOp) → ServiceAns op × Unit
  | .worker op => exampleAnswers () op
  | .isCancelled => (false, ())
  | .encode _ => (.ok (), ())
  | .createParent _ => (.ok (), ())
  | .openTemporary _ => (.ok (), ())
  | .writeTemporary _ _ => (.ok (), ())
  | .syncTemporary _ => (.ok (), ())
  | .removeTemporary _ => ((), ())
  | .deadline => (.ok (), ())
  | .beforeDeadline => (false, ())
  | .waitRetry => ((), ())
  | .rename _ => (.done, ())

def examplePoll : List (Event ServiceAns) × Option GuestMemoryWorker × Unit :=
  (exampleWorker.pollOrRetry.interpret (Handoff.carryOut "telemetry.json" 0)).simulate
    exampleService ()

def exampleFileLabels : List FileLabel := [.started] ++ examplePoll.1.map .service

def exampleEnvelope : RawTelemetryEnvelope where
  version := rawTelemetryVersion
  vmName := "guest"
  serviceName := "service"
  sessionId := "new-session"
  observedUnixMillis := 6000
  monotonicMillis := 1000
  sequence := 0
  memory := exhausted
  nativePressure := some .low
  request := some exampleRequest

/-- The rename of the publication is the last operation but two. -/
theorem exampleFileLabels_eq : exampleFileLabels = exampleFileLabels.take 22 ++
    .service ⟨.rename (.publication exampleEnvelope), .done⟩ :: exampleFileLabels.drop 23 := by
  rfl

theorem exampleFileLabels_run : FileRun "guest" "service" "telemetry.json" exampleFileLabels
    examplePoll.2.1 := by
  have hstart := @FileRun.start "guest" "service" "telemetry.json" _ _ "new-session"
    GuestRequester.examplePolicy { GuestRequester.restartedRequester with state := .initial }
    0 Word.maximum .fresh (by decide)
  exact .poll hstart (Prog.simulate_runs _ _ _)

theorem exampleFileLabels_keepsStop : KeepsStop false exampleFileLabels :=
  keepsStop_running (by decide)

theorem exampleEnvelope_durable :
    (ServiceFiles.after (exampleFileLabels.take 22)).requestState.pending = some exampleRequest :=
  published_durable exampleFileLabels_run exampleFileLabels_keepsStop exampleFileLabels_eq rfl

end VirtioMem.Guest
