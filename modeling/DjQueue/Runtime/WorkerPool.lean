import Mathlib.Data.List.Basic

/-!
# The worker pool

`runtime/pool.py` with the poll of `runtime/worker.py`: one poller, the threads of the executor, and
one call of `shutdown`. A block under the pool's lock, a call of the executor, the run of a task
and the call of a callback are one step each, and the steps of the three interleave. The executor
queues the work of a submission before it starts a thread for it: where the thread cannot be started
the submission raises and the work stays in the queue. Which thread takes which work is left open.
-/

namespace DjQueue

/-! ## The pool -/

/-- A future is known by how many the executor had accepted before it. -/
abbrev FutureId := Nat

/-- What the lock of a `WorkerPool` protects, and its event. -/
structure WorkerPool where
  inFlight : Int
  futures : List FutureId
  /-- Whether a callback is kept. -/
  onDrained : Bool
  closing : Bool
  workerThreadIds : List Nat
deriving DecidableEq, Repr

namespace WorkerPool

def idleCapacity (maxWorkers : Nat) (pool : WorkerPool) : Int :=
  max 0 (maxWorkers - pool.inFlight)

/-- The first block of `submit`; it raises once the pool is closing. -/
def beginSubmit (pool : WorkerPool) : Option WorkerPool :=
  if pool.closing then none else some { pool with inFlight := pool.inFlight + 1 }

/-- The second block of `submit`. -/
def addFuture (future : FutureId) (pool : WorkerPool) : WorkerPool :=
  { pool with futures := pool.futures.insert future }

/-- `_notify_drained`: whether there was a callback to call. -/
def takeOnDrained (pool : WorkerPool) : Bool × WorkerPool :=
  (pool.onDrained, { pool with onDrained := false })

/-- `self._futures.discard(future)` and the count. -/
def countDown (future : Option FutureId) (pool : WorkerPool) : WorkerPool :=
  { pool with
    futures := future.elim pool.futures pool.futures.erase
    inFlight := pool.inFlight - 1 }

/-- The block of `_complete`: whether it took the callback. -/
def complete (future : Option FutureId) (pool : WorkerPool) : Bool × WorkerPool :=
  let pool := pool.countDown future
  if pool.inFlight = 0 ∧ pool.futures = [] then pool.takeOnDrained else (false, pool)

end WorkerPool

/-! ## The executor -/

/-- Where the done-callback of a future is. -/
inductive DoneCallback where
  | unregistered
  | registered
  /-- It took the callback of the pool and has not called it yet. -/
  | calling
  | called
deriving DecidableEq, Repr

/-- Of a future whose work is done. -/
def DoneCallback.afterRun (registered : Bool) : DoneCallback :=
  if registered then .registered else .unregistered

/-- After `_complete`: the callback of the pool, if it took one. -/
def DoneCallback.afterComplete (taken : Bool) : DoneCallback :=
  if taken then .calling else .called

inductive Work where
  | queued (registered : Bool)
  | running (registered : Bool)
  | finished (callback : DoneCallback)
deriving DecidableEq, Repr

/-- `future.add_done_callback(self._complete)`, unless the future is done. -/
def Work.register : Work → Option Work
  | .queued _ => some (.queued true)
  | .running _ => some (.running true)
  | .finished _ => none

/-- Work that was queued by a submission that raised: nobody has its future. -/
inductive Stray where
  | queued | running | finished
deriving DecidableEq, Repr

/-- What `ThreadPoolExecutor` has accepted from `submit`, what it has queued without accepting it,
and how many of the pool's own `close_connections` are not over. -/
structure Executor where
  accepted : List Work
  strays : List Stray
  cleanups : Nat
  shutdown : Bool
deriving DecidableEq, Repr

def Executor.set (executor : Executor) (future : FutureId) (work : Work) : Executor :=
  { executor with accepted := executor.accepted.set future work }

/-! ## Where the threads stand -/

/-- The poller; `others` counts the claimed jobs behind the one it is about. -/
inductive Poller where
  | idle
  | reading
  | claiming (limit : Nat)
  | submitting (others : Nat)
  | begun (others : Nat)
  | rejected (others : Nat)
  | accepted (future : FutureId) (others : Nat)
  | added (future : FutureId) (others : Nat)
  | completing (future : FutureId) (others : Nat)
  | calling (failed : Bool) (others : Nat)
  | handling (others : Nat)
deriving DecidableEq, Repr

/-- The thread that calls `shutdown`. -/
inductive Stopper where
  | notCalled
  | closing
  | waiting (futures : List FutureId) (threads : Nat)
  | cleaning (submits : Nat) (drained : Bool)
  | joining
  | notifying
  | calling
  | returned (drained : Bool)
  | raised
deriving DecidableEq, Repr

structure PoolState where
  pool : WorkerPool
  executor : Executor
  poller : Poller
  stopper : Stopper
deriving DecidableEq, Repr

/-- `WorkerPool.__init__` -/
def PoolState.initial : PoolState :=
  ⟨⟨0, [], false, false, []⟩, ⟨[], [], 0, false⟩, .idle, .notCalled⟩

structure PoolConfig where
  maxWorkers : Nat
  threads : Nat
  prefetchMultiplier : Nat
deriving DecidableEq, Repr

def PoolConfig.prefetchLimit (config : PoolConfig) : Nat :=
  config.threads * config.prefetchMultiplier

/-- `_claim_limit` -/
def claimLimit (config : PoolConfig) (inFlight : Int) : Int :=
  max 0 (config.prefetchLimit - inFlight)

/-! ## Polling -/

inductive PollAction where
  | readIdleCapacity
  | readInFlight
  | claim (count : Nat)
  | begin
  | refuse
  | accept
  | reject
  | rejectQueued
  | completeRejected
  | addFuture
  | addDoneCallback
  | complete
  | call
  | handle
  | handlerRaises
  | return_
deriving DecidableEq, Repr

/-- After `_complete`: the callback, if it took one, and then the next job. -/
def Poller.afterComplete (failed taken : Bool) (others : Nat) : Poller :=
  if taken then .calling failed others
  else if failed then .handling others
  else .submitting others

def pollStep (config : PoolConfig) (s : PoolState) : PollAction → Option PoolState
  | .readIdleCapacity =>
      match s.poller with
      | .idle =>
          if s.pool.idleCapacity config.maxWorkers ≤ 0 then some s
          else some { s with poller := .reading }
      | _ => none
  | .readInFlight =>
      match s.poller with
      | .reading =>
          let limit := claimLimit config s.pool.inFlight
          if limit ≤ 0 then some { s with poller := .idle }
          else some { s with poller := .claiming limit.toNat }
      | _ => none
  -- `claim_ready_jobs` claims what it finds, or raises
  | .claim count =>
      match s.poller with
      | .claiming limit =>
          if count ≤ limit then some { s with poller := .submitting count } else none
      | _ => none
  | .begin =>
      match s.poller, s.pool.beginSubmit with
      | .submitting (others + 1), some pool => some { s with pool := pool, poller := .begun others }
      | _, _ => none
  | .refuse =>
      match s.poller, s.pool.beginSubmit with
      | .submitting (others + 1), none => some { s with poller := .handling others }
      | _, _ => none
  | .accept =>
      match s.poller with
      | .begun others =>
          if s.executor.shutdown then none
          else some { s with
            executor := { s.executor with accepted := s.executor.accepted ++ [.queued false] }
            poller := .accepted s.executor.accepted.length others }
      | _ => none
  | .reject =>
      match s.poller with
      | .begun others => some { s with poller := .rejected others }
      | _ => none
  -- `threading.Thread.start` raises, behind `self._work_queue.put`
  | .rejectQueued =>
      match s.poller with
      | .begun others =>
          if s.executor.shutdown then none
          else some { s with
            executor := { s.executor with strays := s.executor.strays ++ [.queued] }
            poller := .rejected others }
      | _ => none
  | .completeRejected =>
      match s.poller with
      | .rejected others =>
          let (taken, pool) := s.pool.complete none
          some { s with pool := pool, poller := .afterComplete true taken others }
      | _ => none
  | .addFuture =>
      match s.poller with
      | .accepted future others =>
          some { s with pool := s.pool.addFuture future, poller := .added future others }
      | _ => none
  -- the callback of a future that is done is called at once, by the caller
  | .addDoneCallback =>
      match s.poller with
      | .added future others =>
          match s.executor.accepted[future]? with
          | some work =>
              match work.register with
              | some registered => some { s with
                  executor := s.executor.set future registered, poller := .submitting others }
              | none => some { s with poller := .completing future others }
          | none => none
      | _ => none
  | .complete =>
      match s.poller with
      | .completing future others =>
          let (taken, pool) := s.pool.complete (some future)
          some { s with
            pool := pool
            executor := s.executor.set future (.finished .called)
            poller := .afterComplete false taken others }
      | _ => none
  | .call =>
      match s.poller with
      | .calling failed others => some { s with poller := .afterComplete failed false others }
      | _ => none
  -- `_handle_submit_error`
  | .handle =>
      match s.poller with
      | .handling others => some { s with poller := .submitting others }
      | _ => none
  | .handlerRaises =>
      match s.poller with
      | .handling _ => some { s with poller := .idle }
      | _ => none
  | .return_ =>
      match s.poller with
      | .submitting 0 => some { s with poller := .idle }
      | _ => none

/-! ## The executor's threads -/

inductive ThreadAction where
  | start (future : FutureId) (thread : Nat)
  | finish (future : FutureId)
  | complete (future : FutureId)
  | call (future : FutureId)
  | startStray (stray thread : Nat)
  | finishStray (stray : Nat)
  | cleanup
deriving DecidableEq, Repr

def threadStep (config : PoolConfig) (s : PoolState) : ThreadAction → Option PoolState
  | .start future thread =>
      match s.executor.accepted[future]? with
      | some (.queued registered) =>
          if thread < config.maxWorkers then some { s with
            pool := { s.pool with workerThreadIds := s.pool.workerThreadIds.insert thread }
            executor := s.executor.set future (.running registered) }
          else none
      | _ => none
  | .finish future =>
      match s.executor.accepted[future]? with
      | some (.running registered) => some { s with
          executor := s.executor.set future (.finished (.afterRun registered)) }
      | _ => none
  | .complete future =>
      match s.executor.accepted[future]? with
      | some (.finished .registered) =>
          let (taken, pool) := s.pool.complete (some future)
          some { s with
            pool := pool
            executor := s.executor.set future (.finished (.afterComplete taken)) }
      | _ => none
  | .call future =>
      match s.executor.accepted[future]? with
      | some (.finished .calling) =>
          some { s with executor := s.executor.set future (.finished .called) }
      | _ => none
  | .startStray stray thread =>
      match s.executor.strays[stray]? with
      | some .queued =>
          if thread < config.maxWorkers then some { s with
            pool := { s.pool with workerThreadIds := s.pool.workerThreadIds.insert thread }
            executor := { s.executor with strays := s.executor.strays.set stray .running } }
          else none
      | _ => none
  | .finishStray stray =>
      match s.executor.strays[stray]? with
      | some .running => some { s with
          executor := { s.executor with strays := s.executor.strays.set stray .finished } }
      | _ => none
  | .cleanup =>
      match s.executor.cleanups with
      | cleanups + 1 => some { s with executor := { s.executor with cleanups := cleanups } }
      | 0 => none

/-! ## Shutting down -/

inductive StopAction where
  | setClosing
  | snapshot (onDrained : Bool)
  | wait (notDone : List FutureId)
  | submitCleanup
  | cleanupFails (queued : Bool)
  | shutdownExecutor
  | join
  | notify
  | call
deriving DecidableEq, Repr

def Work.isFinished : Work → Bool
  | .finished _ => true
  | .queued _ | .running _ => false

def Stopper.afterNotify (taken : Bool) : Stopper :=
  if taken then .calling else .returned true

def stopStep (s : PoolState) : StopAction → Option PoolState
  | .setClosing =>
      match s.stopper with
      | .notCalled => some { s with pool := { s.pool with closing := true }, stopper := .closing }
      | _ => none
  | .snapshot onDrained =>
      match s.stopper with
      | .closing =>
          let threads := s.pool.workerThreadIds.length
          some { s with
            pool := { s.pool with onDrained := onDrained }
            stopper :=
              if s.pool.futures = [] then .cleaning threads true
              else .waiting s.pool.futures threads }
      | _ => none
  -- `wait` says which futures it saw no end of, whatever the timeout
  | .wait notDone =>
      match s.stopper with
      | .waiting futures threads =>
          if notDone ⊆ futures ∧ notDone.Nodup ∧ ∀ future ∈ futures, future ∉ notDone →
              (s.executor.accepted[future]?).any Work.isFinished then
            some { s with stopper := .cleaning (threads - notDone.length) notDone.isEmpty }
          else none
      | _ => none
  | .submitCleanup =>
      match s.stopper with
      | .cleaning (submits + 1) drained => some { s with
          executor := { s.executor with cleanups := s.executor.cleanups + 1 }
          stopper := .cleaning submits drained }
      | _ => none
  | .cleanupFails queued =>
      match s.stopper with
      | .cleaning (_ + 1) _ => some { s with
          executor := { s.executor with cleanups := s.executor.cleanups + queued.toNat }
          stopper := .raised }
      | _ => none
  | .shutdownExecutor =>
      match s.stopper with
      | .cleaning 0 drained => some { s with
          executor := { s.executor with shutdown := true }
          stopper := if drained then .joining else .returned false }
      | _ => none
  -- `shutdown(wait=True)` returns when all that was queued is over
  | .join =>
      match s.stopper with
      | .joining =>
          if s.executor.accepted.all Work.isFinished ∧ s.executor.strays.all (· = .finished) ∧
              s.executor.cleanups = 0 then
            some { s with stopper := .notifying }
          else none
      | _ => none
  | .notify =>
      match s.stopper with
      | .notifying =>
          let (taken, pool) := s.pool.takeOnDrained
          some { s with pool := pool, stopper := .afterNotify taken }
      | _ => none
  | .call =>
      match s.stopper with
      | .calling => some { s with stopper := .returned true }
      | _ => none

/-- No submitted work is queued or running. -/
def Executor.Idle (executor : Executor) : Prop :=
  (∀ work ∈ executor.accepted, work.isFinished = true) ∧
    ∀ stray ∈ executor.strays, stray = .finished

/-! ## Runs -/

inductive PoolAction where
  | poll (action : PollAction)
  | thread (action : ThreadAction)
  | stop (action : StopAction)
deriving DecidableEq, Repr

def poolStep (config : PoolConfig) (s : PoolState) : PoolAction → Option PoolState
  | .poll action => pollStep config s action
  | .thread action => threadStep config s action
  | .stop action => stopStep s action

def poolRun (config : PoolConfig) (s : PoolState) : List PoolAction → Option PoolState
  | [] => some s
  | action :: actions => (poolStep config s action).bind (poolRun config · actions)

/-- A submission that passed the first block of `submit`. -/
def PoolAction.starts : PoolAction → Nat
  | .poll .begin => 1
  | _ => 0

def PoolAction.completes : PoolAction → Nat
  | .poll .completeRejected | .poll .complete | .thread (.complete _) => 1
  | _ => 0

/-- A call of the `on_drained` callback. -/
def PoolAction.invokes : PoolAction → Nat
  | .poll .call | .thread (.call _) | .stop .call => 1
  | _ => 0

end DjQueue
