import Mathlib.Data.Finset.Basic
import NimbleBrain.Library.Transition

/- Run admission grants a bounded number of slots and queues the runs beyond them. -/

namespace NimbleBrain.Admission

/-- The default limits are those of the tasks configuration. -/
structure AdmissionLimits where
  maxConcurrentRuns : Nat := 2
  maxQueuedRuns : Nat := 50

structure AdmissionRequest where
  workspaceId : String
  key : Option String := none
  deriving DecidableEq

/-- The identifier stands for the identity of the lease object. -/
structure AdmissionLease where
  id : Nat
  workspaceId : String
  key : Option String
  deriving DecidableEq

inductive AdmissionRefusal where
  | running | queued | busy | queueFull | stopped
  deriving DecidableEq

inductive AdmissionWithdrawal where
  | cancelled | aborted | stopped
  | other (reason : String)
  deriving DecidableEq

inductive AdmissionTicket where
  | admitted (lease : AdmissionLease)
  | queued (position : Nat)
  | refused (reason : AdmissionRefusal)
  deriving DecidableEq

/-- The identifier stands for the identity of the copied request object. -/
structure Entry where
  id : Nat
  request : AdmissionRequest
  deriving DecidableEq

/-- The pool holds every closure variable of the admission. Its last three fields keep object identities. -/
structure Pool where
  leases : List AdmissionLease := []
  runningKeys : Finset String := ∅
  heldByWorkspace : String → Option Nat := fun _ => none
  queue : List Entry := []
  stopped : Bool := false
  draining : Bool := false
  released : List Nat := []
  granted : List AdmissionLease := []
  entered : Nat := 0

namespace Pool

def held (pool : Pool) (workspaceId : String) : Nat :=
  (pool.heldByWorkspace workspaceId).getD 0

def inFlight (pool : Pool) : Nat := pool.leases.length

def isRunning (pool : Pool) (key : String) : Bool := decide (key ∈ pool.runningKeys)

def isQueued (pool : Pool) (key : String) : Bool :=
  pool.queue.any fun entry => entry.request.key = some key

/-- A new lease takes the next identity. -/
def newLease (pool : Pool) (request : AdmissionRequest) : AdmissionLease where
  id := pool.granted.length
  workspaceId := request.workspaceId
  key := request.key

def addKey (keys : Finset String) : Option String → Finset String
  | none => keys
  | some key => insert key keys

def deleteKey (keys : Finset String) : Option String → Finset String
  | none => keys
  | some key => keys.erase key

/-- A grant adds the lease to the pool and counts it for its workspace. -/
def grant (pool : Pool) (request : AdmissionRequest) : Pool where
  leases := pool.leases ++ [pool.newLease request]
  runningKeys := addKey pool.runningKeys request.key
  heldByWorkspace := Function.update pool.heldByWorkspace request.workspaceId
    (some (pool.held request.workspaceId + 1))
  queue := pool.queue
  stopped := pool.stopped
  draining := pool.draining
  released := pool.released
  granted := pool.granted ++ [pool.newLease request]
  entered := pool.entered

/-- The first release of a lease removes it from the pool. -/
def free (pool : Pool) (lease : AdmissionLease) : Pool :=
  let n := pool.held lease.workspaceId - 1
  { pool with
    released := lease.id :: pool.released
    leases := pool.leases.erase lease
    runningKeys := deleteKey pool.runningKeys lease.key
    heldByWorkspace := Function.update pool.heldByWorkspace lease.workspaceId
      (if 0 < n then some n else none) }

/-- The scan keeps the first run whose workspace holds the fewest slots and stops at zero. -/
def nextIndexFrom (held : String → Nat) : List Entry → Nat → Nat → Nat → Nat
  | [], _, best, _ => best
  | entry :: rest, i, best, bestHeld =>
      if 0 < bestHeld then
        if held entry.request.workspaceId < bestHeld then
          nextIndexFrom held rest (i + 1) i (held entry.request.workspaceId)
        else nextIndexFrom held rest (i + 1) best bestHeld
      else best

/-- Fair share admits the run whose workspace holds the fewest slots. Ties go to the oldest run. -/
def nextIndex (pool : Pool) : Nat :=
  match pool.queue with
  | [] => 0
  | first :: rest => nextIndexFrom pool.held rest 1 0 (pool.held first.request.workspaceId)

def refusalFor (pool : Pool) (request : AdmissionRequest) : Option AdmissionRefusal :=
  if pool.stopped then some .stopped
  else match request.key with
    | none => none
    | some key =>
        if pool.isRunning key then some .running
        else if pool.isQueued key then some .queued
        else none

def hasFreeSlot (limits : AdmissionLimits) (pool : Pool) : Bool :=
  !pool.stopped && decide (pool.leases.length < limits.maxConcurrentRuns) && pool.queue.isEmpty

/-- The queue holds a copy of the request under a fresh identity. -/
def push (pool : Pool) (request : AdmissionRequest) : Pool :=
  { pool with queue := pool.queue ++ [⟨pool.entered, request⟩], entered := pool.entered + 1 }

/-- A request takes a slot, joins the queue, or is refused. -/
def request (limits : AdmissionLimits) (pool : Pool) (request : AdmissionRequest) (waiter : Bool) :
    Pool × AdmissionTicket :=
  match pool.refusalFor request with
  | some reason => (pool, .refused reason)
  | none =>
      if pool.hasFreeSlot limits then (pool.grant request, .admitted (pool.newLease request))
      else if !waiter then (pool, .refused .busy)
      else if limits.maxQueuedRuns ≤ pool.queue.length then (pool, .refused .queueFull)
      else (pool.push request, .queued (pool.queue.length + 1))

/-- The loop of a drain goes on while a run waits beside a free slot. -/
def wantsNext (limits : AdmissionLimits) (pool : Pool) : Bool :=
  !pool.stopped && !pool.queue.isEmpty && decide (pool.leases.length < limits.maxConcurrentRuns)

/-- A drain takes one waiting run out of the queue and grants it a slot. -/
def admitNext (pool : Pool) (entry : Entry) : Pool :=
  { pool with queue := pool.queue.eraseIdx pool.nextIndex }.grant entry.request

end Pool

end NimbleBrain.Admission

/- Waiter callbacks run inside the calls of the pool and may call it again. -/

namespace NimbleBrain.Admission

/-- A frame is a call of the pool that waits for one of its callbacks to end. -/
inductive Frame where
  | admitting (lease : AdmissionLease)
  | withdrawing (rest : List Entry) (reason : AdmissionWithdrawal)

def Frame.isAdmitting : Frame → Bool
  | .admitting _ => true
  | .withdrawing _ _ => false

/-- The entries of a frame still wait for their callback. -/
def Frame.pending : Frame → List Nat
  | .admitting _ => []
  | .withdrawing rest _ => rest.map (·.id)

/-- A callback tells a waiter how its entry left the queue. -/
inductive Notice where
  | admitted (lease : AdmissionLease)
  | withdrawn (reason : AdmissionWithdrawal)

/-- The machine records every callback. Dropped entries lost theirs when an earlier `withdrawn` threw. -/
structure Machine where
  pool : Pool := {}
  stack : List Frame := []
  notices : List (Nat × Notice) := []
  dropped : List Nat := []

/-- The queries of the pool change nothing and are not actions. -/
inductive Action where
  | request (request : AdmissionRequest) (waiter : Bool)
  | acquire (request : AdmissionRequest) (aborted : Bool)
  | release (lease : AdmissionLease)
  | cancel (key : String) (reason : AdmissionWithdrawal)
  | withdraw (selects : AdmissionRequest → Bool) (reason : AdmissionWithdrawal)
  | abort (entry : Nat)
  | stop
  | callbackReturns
  | callbackThrows

namespace Machine

/-- The drain loop runs up to its next callback or to its end. -/
def drainLoop (limits : AdmissionLimits) (machine : Machine) : Machine :=
  if machine.pool.wantsNext limits then
    match machine.pool.queue[machine.pool.nextIndex]? with
    | none => { machine with pool := { machine.pool with draining := false } }
    | some entry =>
        let lease := machine.pool.newLease entry.request
        { machine with
          pool := machine.pool.admitNext entry
          stack := .admitting lease :: machine.stack
          notices := machine.notices ++ [(entry.id, .admitted lease)] }
  else { machine with pool := { machine.pool with draining := false } }

/-- A drain inside a drain returns at once. -/
def drain (limits : AdmissionLimits) (machine : Machine) : Machine :=
  if machine.pool.draining then machine
  else drainLoop limits { machine with pool := { machine.pool with draining := true } }

/-- Only the first release of a lease has an effect. -/
def release (limits : AdmissionLimits) (machine : Machine) (lease : AdmissionLease) : Machine :=
  if lease.id ∈ machine.pool.released then machine
  else drain limits { machine with pool := machine.pool.free lease }

/-- The first of the withdrawn entries hears the reason. The others wait for its callback to end. -/
def notifyWithdrawn (machine : Machine) (reason : AdmissionWithdrawal) : List Entry → Machine
  | [] => machine
  | entry :: rest =>
      { machine with
        stack := .withdrawing rest reason :: machine.stack
        notices := machine.notices ++ [(entry.id, .withdrawn reason)] }

/-- A withdrawal takes every selected entry out of the queue before the first callback. -/
def withdraw (machine : Machine) (selects : Entry → Bool) (reason : AdmissionWithdrawal) : Machine :=
  notifyWithdrawn
    { machine with pool := { machine.pool with
        queue := machine.pool.queue.filter fun entry => !selects entry } }
    reason (machine.pool.queue.filter selects)

/-- The caller of a callback goes on after the callback returns. -/
def resume (limits : AdmissionLimits) (machine : Machine) : Frame → Machine
  | .admitting _ => drainLoop limits machine
  | .withdrawing rest reason => notifyWithdrawn machine reason rest

/-- A drain catches the error and releases the lease. A withdrawal passes the error on. -/
def unwind (limits : AdmissionLimits) (machine : Machine) : Frame → Machine
  | .admitting lease => drainLoop limits (release limits machine lease)
  | .withdrawing rest _ => { machine with dropped := machine.dropped ++ rest.map (·.id) }

/-- Every call is possible at any time. A callback can end only while one runs. -/
def step (limits : AdmissionLimits) (machine : Machine) : Action → Option Machine
  | .request request waiter =>
      some { machine with pool := (machine.pool.request limits request waiter).1 }
  | .acquire request aborted =>
      if aborted then some machine
      else some { machine with pool := (machine.pool.request limits request true).1 }
  | .release lease =>
      if lease ∈ machine.pool.granted then some (release limits machine lease) else none
  | .cancel key reason =>
      some (machine.withdraw (fun entry => entry.request.key = some key) reason)
  | .withdraw selects reason => some (machine.withdraw (fun entry => selects entry.request) reason)
  | .abort entry => some (machine.withdraw (fun queued => queued.id = entry) .aborted)
  | .stop =>
      some ({ machine with pool := { machine.pool with stopped := true } }.withdraw
        (fun _ => true) .stopped)
  | .callbackReturns =>
      match machine.stack with
      | [] => none
      | frame :: rest => some (resume limits { machine with stack := rest } frame)
  | .callbackThrows =>
      match machine.stack with
      | [] => none
      | frame :: rest => some (unwind limits { machine with stack := rest } frame)

end Machine

/-- Admission starts with an empty pool. -/
def admission (limits : AdmissionLimits) : Library.System Machine Action where
  initial machine := machine = {}
  step := Machine.step limits

end NimbleBrain.Admission
