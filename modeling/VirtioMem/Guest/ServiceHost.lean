import VirtioMem.Guest.StopSignal

/-!
# The Windows service

Three kinds of threads: the one that hosts the service under the service control manager, the worker it
spawns, and whoever cancels (the control handler is one of them). The worker reports over one channel,
the cancellation over the same, and the hosting thread alone publishes the service's status.

The worker itself is any program that uses the stop signal. What Windows answers, and what a clock
shows, is left to the world: a status may fail to be published, a wait may run out.
-/

namespace VirtioMem.Guest

open VirtioMem.Effect

inductive ServiceState where
  | created
  | startPending
  | running
  | stopPending
  | stopped
  | failed
  deriving DecidableEq, Repr

/-! ## What the service control manager is told -/

structure ScmServiceStatus where
  currentState : Nat
  controlsAccepted : Nat
  exitCode : Nat
  deriving DecidableEq, Repr

def serviceStopped : Nat := 1
def serviceStartPending : Nat := 2
def serviceStopPending : Nat := 3
def serviceRunning : Nat := 4
def serviceAcceptStop : Nat := 1
def serviceAcceptShutdown : Nat := 4
def serviceControlStop : Nat := 1
def serviceControlShutdown : Nat := 5

def ScmServiceStatus.fromState : ServiceState → ScmServiceStatus
  | .created | .startPending => ⟨serviceStartPending, 0, 0⟩
  | .running => ⟨serviceRunning, serviceAcceptStop ||| serviceAcceptShutdown, 0⟩
  | .stopPending => ⟨serviceStopPending, 0, 0⟩
  | .stopped => ⟨serviceStopped, 0, 0⟩
  | .failed => ⟨serviceStopped, 0, 1⟩

inductive ServiceHostError where
  | alreadyRunning
  | alreadyStopped
  | startup (reason : String)
  | worker (reason : String)
  | invalidShutdownTimeout
  deriving DecidableEq, Repr

/-- What the hosting thread receives. -/
inductive HostEvent where
  | initialized
  | finished (result : Except ServiceHostError Unit)
  | stop
  deriving DecidableEq

inductive RecvError where
  | timeout
  | disconnected
  deriving DecidableEq, Repr

/-- The callbacks of the stop signal: the host's own, and those of others. -/
inductive HostCallback (K : Type) where
  | sendStop
  | other (callback : K)
  deriving DecidableEq

/-- What is used of the service's configuration. -/
structure HostedConfig where
  serviceName : String
  shutdownTimeout : Nat

/-! ## The steps -/

variable {κ K : Type}

inductive ServiceThread (κ : Type) where
  | host
  | worker
  | other (k : κ)
  deriving DecidableEq

instance [Fintype κ] : Fintype (ServiceThread κ) :=
  Fintype.ofEquiv (Option (Option κ)) {
    toFun
      | none => .host
      | some none => .worker
      | some (some k) => .other k
    invFun
      | .host => none
      | .worker => some none
      | .other k => some (some k)
    left_inv := by rintro (_ | _ | k) <;> rfl
    right_inv := by rintro (_ | _ | k) <;> rfl }

inductive HostingOp (K : Type) where
  | stop (op : StopOp (HostCallback K))
  -- The service's main function.
  | registerHandler
  | publishStatus (status : ScmServiceStatus)
  | loadConfig
  | nativeWorker
  -- The host.
  | loadState
  | storeState (state : ServiceState)
  /-- The instant so much later than now, if there is one. -/
  | deadline (timeout : Nat)
  | takeWorker
  | channel
  | spawn
  | recv (deadline : Option Nat)
  | join
  | exitProcess
  -- The worker's thread.
  | begun
  | send (event : HostEvent)
  | dropWorker
  | exitThread (panicked : Bool)

abbrev HostingAns : HostingOp K → Type
  | .stop op => StopAns op
  | .registerHandler => Except String Unit
  | .publishStatus _ => Except String Unit
  | .loadConfig => Except String HostedConfig
  | .nativeWorker => Except String Unit
  | .loadState => ServiceState
  | .deadline _ => Option Nat
  | .takeWorker => Bool
  | .recv _ => Except RecvError HostEvent
  -- Whether the thread panicked.
  | .join => Bool
  | .dropWorker => Bool
  | _ => Unit

abbrev HostingProg (K α : Type) : Type := Prog (HostingOp K) HostingAns α

def perform (op : HostingOp K) : HostingProg K (HostingAns op) := Prog.ask op

def liftStop {α : Type} (p : StopProg (HostCallback K) α) : HostingProg K α :=
  p.embed .stop fun _ answer => answer

/-! ## The worker's thread -/

/-- A call of the stop signal from outside the host. -/
def userCall : (call : StopCall K) → HostingProg K (CallAns call)
  | .cancel => liftStop StopSignal.cancel
  | .onCancel callback => liftStop (StopSignal.onCancel (.other callback))
  | .isCancelled => liftStop StopSignal.isCancelled
  | .wait => liftStop StopSignal.wait

/-- Code that uses the stop signal. -/
abbrev UserProg (K α : Type) : Type := Prog (StopCall K) CallAns α

/-- The worker's two functions; `none` is a panic. -/
structure ServiceWorker (K : Type) where
  initializeWorker : UserProg K (Option (Except String Unit))
  run : UserProg K (Option (Except String Unit))

def workerPanicked : Except ServiceHostError Unit := .error (.worker "service worker panicked")

namespace ServiceWorker

/-- What runs behind `catch_unwind`. -/
def guarded (worker : ServiceWorker K) : HostingProg K (Except ServiceHostError Unit) := do
  if ← liftStop StopSignal.isCancelled then
    return .ok ()
  else
    match ← worker.initializeWorker.interpret userCall with
    | none => return workerPanicked
    | some (.error error) => return .error (.startup error)
    | some (.ok ()) =>
      if ← liftStop StopSignal.isCancelled then
        return .ok ()
      else
        perform (.send .initialized)
        match ← worker.run.interpret userCall with
        | none => return workerPanicked
        | some (.error error) => return .error (.worker error)
        | some (.ok ()) => return .ok ()

def thread (worker : ServiceWorker K) : HostingProg K Unit := do
  perform .begun
  let result ← worker.guarded
  -- The worker and its native resources go before the exit is announced.
  if ← perform .dropWorker then
    perform (.exitThread true)
  else
    perform (.send (.finished result))
    perform (.exitThread false)

end ServiceWorker

/-! ## The host -/

namespace ServiceHost

/-- The results of the join, of the worker and of the published statuses: the first error counts. -/
def joinedResult (panicked : Bool) (result : Except ServiceHostError Unit)
    (statusError : Option String) : Except ServiceHostError Unit :=
  match panicked, result, statusError with
  | true, _, _ => .error (.worker "worker thread panicked during cleanup")
  | false, .error error, _ => .error error
  | false, .ok (), some error => .error (.worker error)
  | false, .ok (), none => .ok ()

def finalState (result : Except ServiceHostError Unit) : ServiceState :=
  if result.isOk then .stopped else .failed

/-- The loop over the channel; `none` when the process was terminated, or the fuel ran out. -/
def loop (timeout : Nat) (publish : ServiceState → HostingProg K (Except String Unit)) :
    Nat → Option Nat → Option String → HostingProg K (Option (Except ServiceHostError Unit))
  | 0, _, _ => return none
  | fuel + 1, deadline, statusError => do
    match ← perform (.recv deadline) with
    | .ok .stop =>
      if deadline.isNone then
        let deadline ← perform (.deadline timeout)
        perform (.storeState .stopPending)
        match ← publish .stopPending with
        | .ok () => loop timeout publish fuel deadline statusError
        | .error error => loop timeout publish fuel deadline (some error)
      else
        loop timeout publish fuel deadline statusError
    | .ok .initialized =>
      if ← liftStop StopSignal.isCancelled then
        loop timeout publish fuel deadline statusError
      else
        perform (.storeState .running)
        match ← publish .running with
        | .ok () => loop timeout publish fuel deadline statusError
        | .error error =>
          liftStop StopSignal.cancel
          loop timeout publish fuel deadline (some error)
    | .ok (.finished result) =>
      let panicked ← perform .join
      let result := joinedResult panicked result statusError
      perform (.storeState (finalState result))
      return some result
    | .error .timeout =>
      perform .exitProcess
      return none
    | .error .disconnected =>
      let _ ← perform .join
      perform (.storeState .failed)
      return some (.error (.worker "service worker exited without reporting a result"))

/-- Whether the shutdown timeout is zero, or beyond the clock's range. -/
def invalidTimeout (timeout : Nat) : HostingProg K Bool := do
  if timeout = 0 then
    return true
  else
    return (← perform (.deadline timeout)).isNone

def runWithStatus (fuel timeout : Nat) (publish : ServiceState → HostingProg K (Except String Unit)) :
    HostingProg K (Option (Except ServiceHostError Unit)) := do
  match ← perform .loadState with
  | .created =>
    if ← invalidTimeout timeout then
      perform (.storeState .failed)
      return some (.error .invalidShutdownTimeout)
    else if ← liftStop StopSignal.isCancelled then
      perform (.storeState .stopped)
      return some (.ok ())
    else
      perform (.storeState .startPending)
      if ← perform .takeWorker then
        perform .channel
        liftStop (StopSignal.onCancel .sendStop)
        perform .spawn
        loop timeout publish fuel none none
      else
        return some (.error (.startup "service worker unavailable"))
  | .startPending | .running | .stopPending => return some (.error .alreadyRunning)
  | .stopped | .failed => return some (.error .alreadyStopped)

end ServiceHost

/-! ## The service's main function -/

def publishStatus (state : ServiceState) : HostingProg K (Except String Unit) :=
  perform (.publishStatus (.fromState state))

def validateConfiguredServiceIdentity (configured scm : String) : Except String Unit :=
  if configured = scm then .ok ()
  else .error ("configured service name " ++ configured ++ " does not match SCM identity " ++ scm)

def classifyServiceExit (result : Except ServiceHostError Unit) (stopRequested : Bool) :
    ServiceState :=
  match result, stopRequested with
  | .ok (), true => .stopped
  | .ok (), false => .failed
  | .error _, _ => .failed

/-- A last status, whose failure is only logged. -/
def publishLast (state : ServiceState) : HostingProg K (Option Unit) := do
  let _ ← publishStatus state
  return some ()

/-- The main function under a service name; `none` when it did not return. -/
def serviceMain (fuel : Nat) (eventSource : String) : HostingProg K (Option Unit) := do
  match ← perform .registerHandler with
  | .error _ => return some ()
  | .ok () =>
    match ← publishStatus .startPending with
    | .error _ => return some ()
    | .ok () =>
      match ← perform .loadConfig with
      | .error _ => publishLast .failed
      | .ok config =>
        match validateConfiguredServiceIdentity config.serviceName eventSource with
        | .error _ => publishLast .failed
        | .ok () =>
          match ← perform .nativeWorker with
          | .error _ => publishLast .failed
          | .ok () =>
            match ← ServiceHost.runWithStatus fuel config.shutdownTimeout publishStatus with
            | none => return none
            | some result =>
              let stopRequested ← liftStop StopSignal.isCancelled
              publishLast (classifyServiceExit result stopRequested)

/-- The control handler, on a thread of the manager's. -/
def serviceControlHandler (control : Nat) : UserProg K Nat :=
  if control = serviceControlStop ∨ control = serviceControlShutdown then do
    Prog.ask (.cancel : StopCall K)
    return 0
  else
    return 1

/-! ## The world -/

structure ServiceWorld (κ K : Type) where
  signal : StopState (ServiceThread κ) (HostCallback K)
  channel : List HostEvent
  /-- Whether the worker's thread still has its end of the channel. -/
  workerSender : Bool
  /-- Whether the host's callback is still there to send. -/
  stopSender : Bool
  state : ServiceState
  clock : Nat
  /-- Whether the host still has its worker. -/
  hasWorker : Bool
  spawned : Bool
  /-- The end of the worker's thread, and whether it panicked. -/
  ended : Option Bool
  /-- Whether the process was terminated. -/
  exited : Bool
  /-- What the worker's thread has sent. -/
  sent : List HostEvent
  /-- What the service control manager was told. -/
  reports : List ScmServiceStatus

def ServiceWorld.new : ServiceWorld κ K where
  signal := .new
  channel := []
  workerSender := false
  stopSender := false
  state := .created
  clock := 0
  hasWorker := true
  spawned := false
  ended := none
  exited := false
  sent := []
  reports := []

/-- The host's callback sends into the channel, and is dropped. -/
def ServiceWorld.signalled (w : ServiceWorld κ K) (op : StopOp (HostCallback K))
    (signal : StopState (ServiceThread κ) (HostCallback K)) : ServiceWorld κ K :=
  match op with
  | .call .sendStop =>
    { w with signal := signal, channel := w.channel ++ [.stop], stopSender := false }
  | _ => { w with signal := signal }

/-- What a step of a thread is answered, and what it leaves. Instants go up to `horizon`. -/
inductive ServiceWorld.Answers [DecidableEq κ] (horizon : Nat) (i : ServiceThread κ)
    (w : ServiceWorld κ K) : (op : HostingOp K) → HostingAns op → ServiceWorld κ K → Prop
  | stop {op : StopOp (HostCallback K)} {answer : StopAns op}
      {signal : StopState (ServiceThread κ) (HostCallback K)}
      (h : w.signal.perform i op = some (answer, signal)) :
      Answers horizon i w (.stop op) answer (w.signalled op signal)
  | registerHandler (answer : Except String Unit) : Answers horizon i w .registerHandler answer w
  | publishStatus (status : ScmServiceStatus) (answer : Except String Unit) :
      Answers horizon i w (.publishStatus status) answer
        { w with reports := w.reports ++ [status] }
  | loadConfig (answer : Except String HostedConfig) : Answers horizon i w .loadConfig answer w
  | nativeWorker (answer : Except String Unit) : Answers horizon i w .nativeWorker answer w
  | loadState : Answers horizon i w .loadState w.state w
  | storeState (state : ServiceState) :
      Answers horizon i w (.storeState state) () { w with state := state }
  | deadline (timeout : Nat) {now : Nat} (h : w.clock ≤ now) :
      Answers horizon i w (.deadline timeout)
        (if now + timeout ≤ horizon then some (now + timeout) else none) { w with clock := now }
  | takeWorker : Answers horizon i w .takeWorker w.hasWorker { w with hasWorker := false }
  | channel : Answers horizon i w .channel () { w with workerSender := true, stopSender := true }
  | spawn : Answers horizon i w .spawn () { w with spawned := true }
  | received {deadline : Option Nat} {event : HostEvent} {rest : List HostEvent}
      (h : w.channel = event :: rest) :
      Answers horizon i w (.recv deadline) (.ok event) { w with channel := rest }
  | timeout {deadline now : Nat} (hempty : w.channel = []) (hnow : w.clock ≤ now)
      (hdue : deadline ≤ now) :
      Answers horizon i w (.recv (some deadline)) (.error .timeout) { w with clock := now }
  | disconnected {deadline : Option Nat} (hempty : w.channel = []) (hworker : w.workerSender = false)
      (hstop : w.stopSender = false) :
      Answers horizon i w (.recv deadline) (.error .disconnected) w
  | join {panicked : Bool} (h : w.ended = some panicked) : Answers horizon i w .join panicked w
  | exitProcess : Answers horizon i w .exitProcess () { w with exited := true }
  | begun (h : w.spawned = true) : Answers horizon i w .begun () w
  | send (event : HostEvent) :
      Answers horizon i w (.send event) ()
        { w with channel := w.channel ++ [event], sent := w.sent ++ [event] }
  | dropWorker (panicked : Bool) : Answers horizon i w .dropWorker panicked w
  | exitThread (panicked : Bool) :
      Answers horizon i w (.exitThread panicked) ()
        { w with ended := some panicked, workerSender := false }

/-- Nothing runs once the process is terminated. -/
def serviceMachine [DecidableEq κ] (horizon : Nat) :
    Machine (ServiceThread κ) (ServiceWorld κ K) (HostingOp K) HostingAns :=
  fun i w op answer w' => w.exited = false ∧ w.Answers horizon i op answer w'

/-- What a thread returns. -/
abbrev ServiceThread.Value : ServiceThread κ → Type
  | .host => Option Unit
  | _ => Unit

/-- The threads of the service: its main function, its worker, and whoever else has the signal. -/
def serviceThreads (fuel : Nat) (eventSource : String) (worker : ServiceWorker K)
    (users : κ → UserProg K Unit) : (i : ServiceThread κ) → HostingProg K i.Value
  | .host => serviceMain fuel eventSource
  | .worker => worker.thread
  | .other k => (users k).interpret userCall

/-! ## Where the host is -/

/-- What the host's loop has received and published. -/
structure LoopState where
  deadline : Option Nat
  ran : Bool
  stopping : Bool
  inits : Nat
  stops : Nat

def LoopState.new : LoopState where
  deadline := none
  ran := false
  stopping := false
  inits := 0
  stops := 0

inductive HostStage where
  | fresh
  | announced
  /-- Cancelled before the start, or after a failed one. -/
  | quiet
  | neverStarted
  | starting
  | taken
  | opened
  | registered
  | waiting (s : LoopState)
  | stopReceived (s : LoopState)
  | initReceived (s : LoopState)
  | runnable (s : LoopState)
  | finishing (s : LoopState) (result : Except ServiceHostError Unit)
  | joined (s : LoopState) (panicked : Bool) (result : Except ServiceHostError Unit)
  | lost (s : LoopState)
  | timedOut (s : LoopState)
  | gone (s : LoopState)
  | returned (s : LoopState) (ok : Bool)
  | ending (s : Option LoopState) (ok cancelled : Bool)
  | closed (s : Option LoopState) (final : ServiceState)

def exitState (ok cancelled : Bool) : ServiceState :=
  if ok && cancelled then .stopped else .failed

inductive HostMay : HostStage → HostingOp K → Prop
  | registerHandler : HostMay .fresh .registerHandler
  | announce : HostMay .fresh (.publishStatus (.fromState .startPending))
  | loadConfig : HostMay .announced .loadConfig
  | nativeWorker : HostMay .announced .nativeWorker
  | loadState : HostMay .announced .loadState
  | checkTimeout (timeout : Nat) : HostMay .announced (.deadline timeout)
  | refuse : HostMay .announced (.storeState .failed)
  | fail : HostMay .announced (.publishStatus (.fromState .failed))
  | check : HostMay .announced (.stop .isCancelled)
  | failQuiet : HostMay .quiet (.publishStatus (.fromState .failed))
  | neverStart : HostMay .quiet (.storeState .stopped)
  | checkQuiet : HostMay .neverStarted (.stop .isCancelled)
  | start : HostMay .announced (.storeState .startPending)
  | takeWorker : HostMay .starting .takeWorker
  | channel : HostMay .taken .channel
  | register : HostMay .opened (.stop (.lockCallbacks (.register .sendStop)))
  | registering (op : StopOp (HostCallback K))
      (hop : op ≠ .lockCallbacks (.register .sendStop)) : HostMay .registered (.stop op)
  | spawn : HostMay .registered .spawn
  | recv (s : LoopState) : HostMay (.waiting s) (.recv s.deadline)
  | cancelling (s : LoopState) (op : StopOp (HostCallback K))
      (hop : op ≠ .lockCallbacks (.register .sendStop)) : HostMay (.waiting s) (.stop op)
  | arm (s : LoopState) (timeout : Nat) : HostMay (.stopReceived s) (.deadline timeout)
  | storeStop (s : LoopState) : HostMay (.stopReceived s) (.storeState .stopPending)
  | reportStop (s : LoopState) : HostMay (.stopReceived s) (.publishStatus (.fromState .stopPending))
  | checkRun (s : LoopState) : HostMay (.initReceived s) (.stop .isCancelled)
  | storeRun (s : LoopState) : HostMay (.runnable s) (.storeState .running)
  | reportRun (s : LoopState) : HostMay (.runnable s) (.publishStatus (.fromState .running))
  | join (s : LoopState) (result : Except ServiceHostError Unit) : HostMay (.finishing s result) .join
  | joinLost (s : LoopState) : HostMay (.lost s) .join
  | store (s : LoopState) (panicked : Bool) (result : Except ServiceHostError Unit)
      (state : ServiceState) (h : state = .stopped ∧ panicked = false ∧ result = .ok () ∨
        state = .failed) : HostMay (.joined s panicked result) (.storeState state)
  | exit (s : LoopState) : HostMay (.timedOut s) .exitProcess
  | checkEnd (s : LoopState) (ok : Bool) : HostMay (.returned s ok) (.stop .isCancelled)
  | close (s : Option LoopState) (ok cancelled : Bool) :
      HostMay (.ending s ok cancelled) (.publishStatus (.fromState (exitState ok cancelled)))

/-- What a step of the host leads to. -/
def HostStage.next : HostStage → (op : HostingOp K) → HostingAns op → HostStage
  | .fresh, .publishStatus _, _ => .announced
  | .announced, .stop .isCancelled, cancelled => if cancelled = true then .quiet else .announced
  | .announced, .storeState .startPending, _ => .starting
  | .announced, .publishStatus _, _ => .closed none .failed
  | .quiet, .storeState _, _ => .neverStarted
  | .quiet, .publishStatus _, _ => .closed none .failed
  | .neverStarted, .stop .isCancelled, cancelled => .ending none true cancelled
  | .starting, .takeWorker, had => if had = true then .taken else .announced
  | .taken, .channel, _ => .opened
  | .opened, .stop _, _ => .registered
  | .registered, .spawn, _ => .waiting .new
  | .waiting s, .recv _, .ok .stop =>
    if s.deadline.isSome then .waiting { s with stops := s.stops + 1 }
    else .stopReceived { s with stops := s.stops + 1 }
  | .waiting s, .recv _, .ok .initialized => .initReceived { s with inits := s.inits + 1 }
  | .waiting s, .recv _, .ok (.finished result) => .finishing s result
  | .waiting s, .recv _, .error .timeout => .timedOut s
  | .waiting s, .recv _, .error .disconnected => .lost s
  | .stopReceived s, .deadline _, deadline => .stopReceived { s with deadline := deadline }
  | .stopReceived s, .publishStatus _, _ => .waiting { s with stopping := true }
  | .initReceived s, .stop .isCancelled, cancelled =>
    if cancelled = true then .waiting s else .runnable s
  | .runnable s, .publishStatus _, _ => .waiting { s with ran := true }
  | .finishing s result, .join, panicked => .joined s panicked result
  | .lost s, .join, _ => .joined s true (.ok ())
  | .joined s _ _, .storeState state, _ => .returned s (state == .stopped)
  | .timedOut s, .exitProcess, _ => .gone s
  | .returned s ok, .stop .isCancelled, cancelled => .ending (some s) ok cancelled
  | .ending s ok cancelled, .publishStatus _, _ => .closed s (exitState ok cancelled)
  | stage, _, _ => stage

/-! ## Where the worker's thread is -/

inductive WorkStage where
  | unborn
  | working (initialized : Bool)
  | dropped (initialized panicked : Bool)
  | finished (initialized : Bool) (result : Except ServiceHostError Unit)
  | ended (initialized : Bool) (result : Option (Except ServiceHostError Unit))

inductive WorkMay : WorkStage → HostingOp K → Prop
  | begun : WorkMay .unborn .begun
  | stop (initialized : Bool) (op : StopOp (HostCallback K))
      (hop : op ≠ .lockCallbacks (.register .sendStop)) : WorkMay (.working initialized) (.stop op)
  | initialized : WorkMay (.working false) (.send .initialized)
  | dropWorker (initialized : Bool) : WorkMay (.working initialized) .dropWorker
  | finished (initialized : Bool) (result : Except ServiceHostError Unit) :
      WorkMay (.dropped initialized false) (.send (.finished result))
  | panicked (initialized : Bool) : WorkMay (.dropped initialized true) (.exitThread true)
  | exit (initialized : Bool) (result : Except ServiceHostError Unit) :
      WorkMay (.finished initialized result) (.exitThread false)

def WorkStage.next : WorkStage → (op : HostingOp K) → HostingAns op → WorkStage
  | .unborn, .begun, _ => .working false
  | .working _, .send _, _ => .working true
  | .working initialized, .dropWorker, panicked => .dropped initialized panicked
  | .dropped initialized _, .send (.finished result), _ => .finished initialized result
  | .dropped initialized _, .exitThread _, _ => .ended initialized none
  | .finished initialized result, .exitThread _, _ => .ended initialized (some result)
  | stage, _, _ => stage

/-! ## The threads' automata -/

/-- Where a thread is: in a call of the signal, and as the host or the worker, if it is that. -/
structure ServiceLocal (K : Type) where
  call : StopPhase (HostCallback K)
  host : HostStage
  work : WorkStage

def ServiceLocal.new : ServiceLocal K where
  call := .idle
  host := .fresh
  work := .unborn

def CallMay : StopPhase (HostCallback K) → HostingOp K → Prop
  | phase, .stop op => phase.May (fun _ => True) op
  | phase, _ => phase = .idle

def callNext : StopPhase (HostCallback K) → (op : HostingOp K) → HostingAns op →
    StopPhase (HostCallback K)
  | phase, .stop op, answer => phase.next op answer
  | phase, _, _ => phase

def serviceMonitor : ServiceThread κ → Monitor (ServiceLocal K) (HostingOp K) HostingAns
  | .host => {
      may l op := CallMay l.call op ∧ HostMay l.host op
      next l op answer := { l with call := callNext l.call op answer, host := l.host.next op answer } }
  | .worker => {
      may l op := CallMay l.call op ∧ WorkMay l.work op
      next l op answer := { l with call := callNext l.call op answer, work := l.work.next op answer } }
  | .other _ => {
      may l op := CallMay l.call op ∧
        ∃ stop, op = .stop stop ∧ stop ≠ .lockCallbacks (.register .sendStop)
      next l op answer := { l with call := callNext l.call op answer } }

end VirtioMem.Guest
