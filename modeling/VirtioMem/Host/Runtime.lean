import VirtioMem.Host.Controller

/-!
# The host runtime

One round over all VMs: observe every VM, allocate the pool, then execute each ready request, highest
priority first. A VM that fails is latched and stops, the others keep running, and the daemon stops
only once every VM has.

A round is `observeAll` followed by `actAll`; nothing is asked between the two.
-/

namespace VirtioMem.Host

open VirtioMem.Core VirtioMem.Effect VirtioMem.Word

/-- What a round asks: whether to stop, and what one of the VMs asks. -/
inductive RuntimeOp where
  | stopRequested
  | vm (index : Nat) (op : VmOp)

abbrev RuntimeAns : RuntimeOp → Type
  | .stopRequested => Bool
  | .vm _ op => VmAns op

structure HostRuntime where
  vms : List VmController
  /-- Shared device-byte budget; without one each VM is bounded only by its device and the host
  reserve. -/
  poolBytes : Option Nat

abbrev RuntimeAction (α : Type) : Type :=
  Action RuntimeOp RuntimeAns HostRuntime HostRuntimeError α

namespace HostRuntime

/-- Run an action of one VM. Every index comes from the list itself, so it is in range. -/
def onVm {α : Type} (index : Nat) (action : VmAction α) : RuntimeAction α := fun self =>
  match self.vms[index]? with
  | none => .pure (.error (.controller "no such VM"), self)
  | some vm =>
    ((action vm).embed (.vm index) fun _ answer => answer).bind fun outcome =>
      .pure (outcome.1, { self with vms := self.vms.set index outcome.2 })

end HostRuntime

namespace VmController

def stop : VmAction Unit := modify fun self => { self with stopped := true }

/-- One VM's part of the observation, and the error it stopped with if it did. -/
def observed : VmAction (Observed × Option HostRuntimeError) := do
  let self ← get
  match ← (if self.stopped then observeStopped else observe) with
  | .stop error =>
    stop
    let held ← observeStopped
    return (held, some error)
  | seen => return (seen, none)

/-- This VM's input to the pool. Anything not executing a request asks for nothing beyond what it
holds. A VM never read since startup could hold anything, so it is charged the whole pool. -/
def poolMember (self : VmController) (observed : Observed) (poolBytes : Nat) : PoolMember :=
  let (charged, block, wanted) := match observed with
    | .held charge =>
      let (charged, block) := charge.getD (poolBytes, minBlockSizeBytes)
      (charged, block, 0)
    -- A stopping round never reaches allocation.
    | .stop _ => (poolBytes, minBlockSizeBytes, 0)
    | .ready ready => (ready.state.currentBytes, ready.state.blockSizeBytes,
        match ready.request.operation with
        | .add => min ready.request.bytes
            ((self.config.maxRam : Nat) - ready.baseRam - ready.state.currentBytes)
        | .remove => 0)
  { priority := self.config.priority
    chargedBytes := charged
    desiredBytes := saturatingAdd charged wanted
    blockBytes := block }

/-- One VM's part of the actions, and the error it stopped with if it did. -/
def acted (ready : Ready) (ceiling : Option Nat) (committed : Nat) :
    VmAction (Option HostRuntimeError × Nat) := do
  match ← act ready ceiling committed with
  | (.stop error, committed) =>
    stop
    return (some error, committed)
  | (.wait, committed) => return (none, committed)

end VmController

namespace HostRuntime

/-- Observe the VMs of `order` in turn, unless a stop is requested. -/
def observeFrom (observed : List Observed) (lastStop : Option HostRuntimeError) :
    List Nat → RuntimeAction (Option (List Observed × Option HostRuntimeError))
  | [] => return some (observed, lastStop)
  | index :: order => do
    if ← Action.perform .stopRequested then return none
    else
      let (seen, stopped) ← onVm index VmController.observed
      observeFrom (observed ++ [seen]) (stopped.or lastStop) order

/-- The first phase: an observation of every VM and the last error one stopped with. -/
def observeAll : RuntimeAction (Option (List Observed × Option HostRuntimeError)) := do
  let self ← get
  observeFrom [] none (List.range self.vms.length)

/-- The ceilings of this round; without a pool there are none. -/
def allocate (self : HostRuntime) (observed : List Observed) :
    Except HostRuntimeError (Option (List PoolAllocation)) :=
  match self.poolBytes with
  | none => .ok none
  | some poolBytes =>
    match allocatePool poolBytes (List.zipWith (fun vm seen => vm.poolMember seen poolBytes)
        self.vms observed) with
    | .error error => .error (.controller error.toString)
    | .ok allocations => .ok (some allocations)

/-- Growth that every VM may still make; a VM never read could grow without bound. -/
def committed (self : HostRuntime) : Nat :=
  self.vms.foldl (fun total vm => saturatingAdd total (vm.outstandingGrowth.getD maximum)) 0

/-- Execute the ready requests of `order` in turn, until a stop is requested. -/
def actFrom (observed : List Observed) (ceilings : Option (List PoolAllocation)) :
    List Nat → Nat → Option HostRuntimeError → RuntimeAction (Option HostRuntimeError)
  | [], _, lastStop => return lastStop
  | index :: order, committed, lastStop => do
    if ← Action.perform .stopRequested then return lastStop
    else
      match observed[index]? with
      | some (.ready ready) =>
        let (stopped, committed) ← onVm index
          (VmController.acted ready (ceilings.map (ceilingOf · index)) committed)
        actFrom observed ceilings order committed (stopped.or lastStop)
      | _ => actFrom observed ceilings order committed lastStop

/-- The order of execution: by priority, and otherwise as configured. -/
def order (self : HostRuntime) : List Nat :=
  servingOrder (fun index => (self.vms[index]?.map (·.config.priority)).getD 0) self.vms.length

/-- The second phase. -/
def actAll (observed : List Observed) (lastStop : Option HostRuntimeError) : RuntimeAction Step := do
  if ← Action.perform .stopRequested then return .wait
  else
    let self ← get
    let ceilings ← Action.ofExcept (self.allocate observed)
    let lastStop ← actFrom observed ceilings self.order self.committed lastStop
    let self ← get
    return match lastStop with
      | some error => if self.vms.all VmController.stopped then .stop error else .wait
      | none => .wait

def round : RuntimeAction Step := do
  match ← observeAll with
  | none => return .wait
  | some (observed, lastStop) => actAll observed lastStop

end HostRuntime

end VirtioMem.Host
