import CallbackLocks.Contest
import CallbackLocks.Scenario.Stage

/-!
# Callbacks and threads in a scenario

* `Stage.reach`      the locking callback that is reached, directly or through a registry
* `Stage.call`       a worker calls a locking callback
* `Stage.threadId`   a worker calls a thread id callback
* `Stage.contend`    several threads contend for one lock
* `Stage.race`       several threads do the same at the same time
-/

namespace CallbackLocks.Stage

/-! ## single calls -/

/-- The locking callback that is reached.  Only the host has to be asked for it. -/
def reach (s : Stage) : Via → Option LockCallback × Stage
  | .direct => (some .own, s)
  | .registry (.recorder i) => (s.world.locking (.recorder i), s)
  | .registry .host => (s.world.locking .host, s.saw (.readLocking .host))

/-- A worker calls a locking callback.  The main thread looks for it, and a worker that waits for a
lock cannot call what is found. -/
def call (s : Stage) (worker : Nat) (via : Via) (mode index line : Int32) :
    Except Fault (Answer × Stage) :=
  if !s.canReach via then .ok (.badStep, s)
  else match s.reach via with
    | (none, s) => .ok (.noCallback, s)
    | (some f, s) =>
      if s.world.isWaiting (.worker worker) then .ok (.threadBlocked, s)
      else match f with
        | .foreign k => .ok (.called (.returned none), s.saw (.foreignLock k mode index line))
        | .own => do
          let (o, t) ← dispatch s.world.table (.worker worker) mode index
          return (.called o, { s with world.table := some t })

/-- The place of a thread in the order of appearance. -/
def number (s : Stage) (t : Thread) : Nat × Stage :=
  match s.threads.idxOf? t with
  | some k => (k, s)
  | none => (s.threads.length, { s with threads := s.threads ++ [t] })

/-- The thread id callback that is reached.  Nobody has to be asked for it. -/
def reachId (s : Stage) : Via → Option IdCallback
  | .direct => some .own
  | .registry r => s.world.idCallback r

/-- A worker calls a thread id callback, unless it waits for a lock.  Ours names the calling
thread. -/
def threadId (s : Stage) (worker : Nat) (via : Via) : Answer × Stage :=
  if !s.canReach via then (.badStep, s)
  else match s.reachId via with
    | none => (.noCallback, s)
    | some f =>
      if s.world.isWaiting (.worker worker) then (.threadBlocked, s)
      else match f with
        | .foreign => (.foreignId foreignThreadId, s)
        | .own =>
          let (k, s) := s.number (.worker worker)
          (.threadId k true, s)

/-! ## several threads -/

/-- What a foreign callback sees of one round. -/
def foreignRound (number : Nat) (calls : Contest.Calls) : List Call :=
  [.foreignLock number calls.takeMode calls.index 0,
   .foreignLock number calls.giveMode calls.index 0]

/-- Several threads contend for one lock.  A foreign callback keeps nobody out, and the threads go
round one after another. -/
def contend (s : Stage) (via : Via) (threads rounds : Nat) (index : Int32) :
    Except Fault (Answer × Stage) :=
  let calls := Contest.Calls.forWriting index
  if !s.canReach via then .ok (.badStep, s)
  else match s.reach via with
    | (none, s) => .ok (.noCallback, s)
    | (some (.foreign k), s) =>
      let all := threads * rounds
      let seen := (List.replicate all (foreignRound k calls)).flatten
      .ok (.contest all (min all 1),
        { s with world.trace := s.world.trace ++ seen.map .call })
    | (some .own, s) => do
      let c ← (Contest.start s.world.table threads rounds).finish calls
      return (.contest c.counter c.peak, { s with world.table := c.table })

/-- Several threads do the same at the same time; the main thread settles what they are left
with. -/
def race (s : Stage) (kind : RaceKind) (r : Registry) (threads : Nat) : Answer × Stage :=
  if !s.hasRegistry r then (.badStep, s)
  else
    let (prizes, w) := CallbackLocks.race kind r threads s.world
    { s with world := w }.act (settle w.edition prizes) fun result s => (.race result, s)

end CallbackLocks.Stage
