import CallbackLocks.Session

/-!
# Races

Several threads do the same at the same time, and everything that they get hold of is kept until
all of them are done.

* `RaceKind`         what they do, most of it at one registry
* `Prize`            what one of them is left with
* `RaceKind.entrant` what one of them does
* `settle`           owners counted, the table measured, and then all prizes given up
* `runInTurn`        the threads one after another, each from its start to its end
* `race`             what they do, by threads that take their turn one after another

Taking turns is the one order in which nobody ever has to wait.
-/

namespace CallbackLocks

/-- What several threads do at the same time. -/
inductive RaceKind where
  | install
  | teardown
  | handle
  | session
deriving DecidableEq, Inhabited

/-- What one thread of a race is left with. -/
inductive Prize where
  | nothing
  | handle (h : Handle)
  | session (s : Session)
  /-- it did not get a session -/
  | refusal
deriving DecidableEq, Inhabited

namespace Prize

def isSession : Prize → Bool
  | session _ => true
  | _ => false

/-- no session where one was asked for -/
def isRefusal : Prize → Bool
  | refusal => true
  | _ => false

/-- a handle that owns the table -/
def owns : Prize → Program Bool
  | handle h => h.owns
  | _ => return false

def drop (e : Edition) : Prize → Program Unit
  | nothing | refusal => return ()
  | handle h => h.drop
  | session s => s.finish e

end Prize

namespace RaceKind

/-- What one thread of a race at `r` does.  A session has a registry of its own, that of the
host. -/
def entrant (e : Edition) (r : Registry) : RaceKind → Program Prize
  | install => do
    let _ ← Lifecycle.install r
    return .nothing
  | teardown => do
    Lifecycle.teardown r
    return .nothing
  | handle => do
    let h ← Handle.install r
    return .handle h
  | session => do
    match ← Session.begin e with
    | .ok s => return .session s
    | .error _ => return .refusal

end RaceKind

/-- what a race came to -/
structure RaceResult where
  owners : Nat
  sessions : Nat
  refused : Nat
  lockCount : Option Nat
deriving DecidableEq, Inhabited

def countOwners : List Prize → Program Nat
  | [] => return 0
  | p :: ps => do
    let owns ← p.owns
    let others ← countOwners ps
    return owns.toNat + others

def dropAll (e : Edition) : List Prize → Program Unit
  | [] => return ()
  | p :: ps => do
    p.drop e
    dropAll e ps

/-- What the prizes come to; then they are given up. -/
def settle (e : Edition) (prizes : List Prize) : Program RaceResult := do
  let owners ← countOwners prizes
  let size ← Lifecycle.lockCount
  dropAll e prizes
  return ⟨owners, prizes.countP Prize.isSession, prizes.countP Prize.isRefusal, size⟩

/-- The programs of the racers from number `i` on, one after another. -/
def runInTurn {α : Type} (i : Nat) : List (Program α) → World → List (Except Abandoned α) × World
  | [], w => ([], w)
  | p :: ps, w =>
    let first := p.run (.racer i) w
    let rest := runInTurn (i + 1) ps first.2
    (first.1 :: rest.1, rest.2)

/-- The error queues of racers end with them. -/
def World.endRacers (w : World) : World :=
  { w with queues := fun
      | .racer _ => .empty
      | t => w.queues t }

/-- The prizes of a race of `threads` threads at `r`, and the state after it. -/
def race (kind : RaceKind) (r : Registry) (threads : Nat) (w : World) : List Prize × World :=
  let ran := runInTurn 0 (List.replicate threads (kind.entrant w.edition r)) w
  (ran.1.filterMap Except.toOption, ran.2.endRacers)

end CallbackLocks
