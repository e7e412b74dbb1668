import CallbackLocks.Dispatch

/-!
# Threads that contend for one lock

Several threads each go round and round: take a lock through the dispatcher, enter, read a shared
counter, write the value read plus one, leave, give the lock back.  Reading and writing are two
steps, so the counter is right only if the lock keeps the threads apart.

* `Phase`            where in its round a thread is
* `Contestant`       a thread, with the rounds that it still has to finish
* `Contest`          the table, the counter, how many threads are inside and how many were at most
* `Contest.step`     one step of one thread
* `Contest.follow`   the steps of a schedule, one after another
* `Contest.finish`   all threads in turn, over and over, until their rounds are finished

A step also says which thread of a line is served when the lock is given back.
-/

namespace CallbackLocks

/-- Where in its round a thread is. -/
inductive Phase where
  /-- it has not asked for the lock -/
  | outside
  | waiting
  | holding
  /-- it has entered -/
  | inside
  /-- it has read the counter -/
  | read (value : Nat)
  | written
  /-- it has left, and still has the lock -/
  | left
deriving DecidableEq, Inhabited

/-- how many steps of its round a thread has behind it -/
def Phase.progress : Phase → Nat
  | outside => 0
  | waiting => 1
  | holding => 2
  | inside => 3
  | read _ => 4
  | written => 5
  | left => 6

/-- A thread of a contest. -/
structure Contestant where
  phase : Phase
  /-- the rounds that it has not finished -/
  rounds : Nat
deriving DecidableEq, Inhabited

/-- how many steps a thread has before it at most -/
def Contestant.work (k : Contestant) : Nat := 7 * k.rounds - k.phase.progress

/-- What the threads of a contest call the dispatcher with. -/
structure Contest.Calls where
  takeMode : Int32
  giveMode : Int32
  index : Int32
deriving DecidableEq, Inhabited

/-- The calls that take and give back lock `index` for writing. -/
def Contest.Calls.forWriting (index : Int32) : Contest.Calls :=
  ⟨Mode.lock ||| Mode.write, Mode.unlock ||| Mode.write, index⟩

/-- A contest under way.  Contestant `i` is the thread `Thread.racer i`. -/
structure Contest where
  table : Option LockTable
  counter : Nat
  inside : Nat
  peak : Nat
  contestants : Array Contestant
deriving DecidableEq, Inhabited

namespace Contest

/-- the start of a contest of `threads` threads with `rounds` rounds each -/
def start (table : Option LockTable) (threads rounds : Nat) : Contest where
  table := table
  counter := 0
  inside := 0
  peak := 0
  contestants := Array.replicate threads ⟨.outside, rounds⟩

def setPhase (c : Contest) (i : Nat) (p : Phase) : Contest :=
  { c with contestants := c.contestants.modify i fun k => { k with phase := p } }

/-- contestant `i` is through with one round -/
def endRound (c : Contest) (i : Nat) : Contest :=
  { c with contestants := c.contestants.modify i fun k => ⟨.outside, k.rounds - 1⟩ }

/-- the contest after the waiting call of `woken` has returned -/
def wake (c : Contest) : Option Thread → Contest
  | some (.racer j) => c.setPhase j .holding
  | _ => c

/-- Contestant `i` calls the dispatcher. -/
def dispatch (place : Nat) (mode index : Int32) (i : Nat) : Contest →
    Except Fault (Outcome × Contest)
  | ⟨table, counter, inside, peak, contestants⟩ =>
    match dispatchTo place table (.racer i) mode index with
    | .error f => .error f
    | .ok (o, t) => .ok (o, ⟨some t, counter, inside, peak, contestants⟩)

/-- One step of contestant `i`; it serves the thread at `place` of the line. -/
def step (calls : Calls) (c : Contest) (i place : Nat) : Except Fault Contest :=
  match c.contestants[i]? with
  | none => .ok c
  | some k => match k.phase with
    | .outside =>
      if k.rounds = 0 then .ok c
      else match c.dispatch place calls.takeMode calls.index i with
        | .error f => .error f
        | .ok (.blocked, c) => .ok (c.setPhase i .waiting)
        | .ok (.returned _, c) => .ok (c.setPhase i .holding)
    | .waiting => .ok c
    | .holding =>
      .ok ({ c with inside := c.inside + 1, peak := max c.peak (c.inside + 1) }.setPhase i .inside)
    | .inside => .ok (c.setPhase i (.read c.counter))
    | .read v => .ok ({ c with counter := v + 1 }.setPhase i .written)
    | .written => .ok ({ c with inside := c.inside - 1 }.setPhase i .left)
    | .left => match c.dispatch place calls.giveMode calls.index i with
      | .error f => .error f
      | .ok (o, c) => .ok ((c.endRound i).wake o.woken)

/-- The steps of a schedule: who steps, and whom he serves. -/
def follow (calls : Calls) (schedule : List (Nat × Nat)) (c : Contest) : Except Fault Contest :=
  schedule.foldlM (fun c s => step calls c s.1 s.2) c

/-- Every contestant in turn, each serving the thread that has waited longest. -/
def turn (calls : Calls) (c : Contest) : Except Fault Contest :=
  follow calls ((List.range c.contestants.size).map (·, 0)) c

def isDone (c : Contest) : Bool := c.contestants.all fun k => k.rounds == 0

/-- how many steps are left at most -/
def work (c : Contest) : Nat := c.contestants.foldl (fun n k => n + k.work) 0

/-- At most `n` turns, until all rounds are finished. -/
def turns (calls : Calls) : Nat → Contest → Except Fault Contest
  | 0, c => .ok c
  | n + 1, c =>
    if c.isDone then .ok c
    else match turn calls c with
      | .error f => .error f
      | .ok c => turns calls n c

/-- As many turns as there are steps left: every turn of an unfinished contest brings one of them
forward. -/
def finish (calls : Calls) (c : Contest) : Except Fault Contest := turns calls c.work c

end Contest

end CallbackLocks
