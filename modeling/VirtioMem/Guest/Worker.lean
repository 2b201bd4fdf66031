import VirtioMem.Core.GuestPolicy
import VirtioMem.Lib.Effect

/-!
# The guest's service

One poll of the Windows worker: sample the counters and the clocks, read the host's status, let the
policy decide, make a changed request state durable, and only then publish. The worker is a program
over the operations below; whatever answers them is the guest's world, and a run that is cut short is
a crash.

`persist` and `publish` both replace a file through a temporary one, so each either happened or did
not, whatever it reports: the answer carries both. A cancelled replacement reports success without
writing, which is why `ok` does not imply `written`.
-/

namespace VirtioMem.Guest

open VirtioMem.Core VirtioMem.Effect VirtioMem.Word

/-- What replacing a file came to, and what was reported. -/
structure Replaced where
  written : Bool
  result : Except String Unit

inductive WorkerOp where
  | collect
  | nowUnixMillis
  | monotonicMillis
  | nativePressure
  | readStatus
  /-- Replace the durable request state. -/
  | persist (state : GuestRequestState)
  /-- Replace the publication. -/
  | publish (envelope : RawTelemetryEnvelope)

abbrev WorkerAns : WorkerOp → Type
  | .collect => Except String MemoryTelemetrySnapshot
  | .nowUnixMillis => Except String Nat
  | .monotonicMillis => Except String Nat
  | .nativePressure => Option MemoryResourceNotificationState
  | .readStatus => Except String (Option HostMemoryStatus)
  | .persist _ => Replaced
  | .publish _ => Replaced

structure GuestMemoryWorker where
  requester : GuestRequester
  nextSequence : Nat
  previousMonotonicMillis : Option Nat
  /-- The last poll ended before the policy saw anything. -/
  collectionFailed : Bool

/-- The worker a service builds around its requester. -/
def GuestMemoryWorker.new (requester : GuestRequester) : GuestMemoryWorker where
  requester := requester
  nextSequence := 0
  previousMonotonicMillis := none
  collectionFailed := false

abbrev WorkerAction (α : Type) : Type := Action WorkerOp WorkerAns GuestMemoryWorker String α

abbrev send (op : WorkerOp) : WorkerAction (WorkerAns op) := Action.perform op

/-- An error under the name of the step it came from. -/
def labelled {α : Type} (label : String) (answer : Except String α) : Except String α :=
  answer.mapError fun error => label ++ ": " ++ error

namespace GuestMemoryWorker

/-- The policy's part of a poll, on the worker's own requester. -/
def consult (sample : TargetSample) (status : Option HostMemoryStatus) :
    WorkerAction GuestDecision := do
  let self ← get
  modify fun worker => { worker with requester := (self.requester.poll sample status).2 }
  Action.ofExcept (labelled "guest memory request failed" (self.requester.poll sample status).1)

/-- Changed state is durable before the poll goes on. -/
def persistIf (needed : Bool) : WorkerAction Unit := do
  if needed then
    let self ← get
    let replaced ← send (.persist self.requester.state)
    Action.ofExcept (labelled "guest memory request failed"
      (labelled "persist request state" replaced.result))

/-- The request to publish with this sample. -/
def requestsPoll (sample : TargetSample) : WorkerAction (Option MemoryRequest) := do
  let answer ← send .readStatus
  let status ← Action.ofExcept (labelled "guest memory request failed" answer)
  let decision ← consult sample status
  persistIf decision.persist
  return decision.request

/-- The counters, or the one failure that only skips a sample. -/
def collectMemory : WorkerAction MemoryTelemetrySnapshot := do
  modify fun self => { self with collectionFailed := true }
  let answer ← send .collect
  let memory ← Action.ofExcept (labelled "native memory telemetry failed" answer)
  modify fun self => { self with collectionFailed := false }
  return memory

def pollOnce : WorkerAction Unit := do
  let memory ← collectMemory
  let answer ← send .nowUnixMillis
  let now ← Action.ofExcept answer
  let answer ← send .monotonicMillis
  let monotonic ← Action.ofExcept answer
  let self ← get
  Action.ofExcept (if self.previousMonotonicMillis.any (monotonic ≤ ·) then
    .error "raw telemetry monotonic clock did not advance" else .ok ())
  let pressure ← send .nativePressure
  let request ← requestsPoll {
    sessionId := self.requester.sessionId
    observedUnixMillis := now
    monotonicMillis := monotonic
    sequence := self.nextSequence
    memory := memory
    nativePressure := pressure }
  let published ← send (.publish {
    version := rawTelemetryVersion
    vmName := self.requester.vmName
    serviceName := self.requester.serviceName
    sessionId := self.requester.sessionId
    observedUnixMillis := now
    monotonicMillis := monotonic
    sequence := self.nextSequence
    memory := memory
    nativePressure := pressure
    request := request })
  Action.ofExcept (labelled "raw telemetry publication failed" published.result)
  let nextSequence ← Action.ofExcept (Result.okOr (checkedAdd self.nextSequence 1)
    "raw telemetry sequence exhausted")
  modify fun worker =>
    { worker with previousMonotonicMillis := some monotonic, nextSequence := nextSequence }

/-- A failed collection skips the sample and resets the reclaim history; any other error ends the
service. -/
def pollOrRetry (self : GuestMemoryWorker) :
    Prog WorkerOp WorkerAns (Option GuestMemoryWorker) :=
  (pollOnce self).bind fun
    | (.ok (), self) => .pure (some self)
    | (.error _, self) =>
      if self.collectionFailed then
        .pure (some { self with requester := self.requester.invalidateHistory })
      else .pure none

end GuestMemoryWorker

end VirtioMem.Guest
