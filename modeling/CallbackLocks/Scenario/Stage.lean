import CallbackLocks.Errors.Strings
import CallbackLocks.Scenario.Answer
import CallbackLocks.Scenario.Command
import CallbackLocks.Session

/-!
# The stage of a scenario

* `Named`            values under names; a new value takes the place of an older one of that name
* `Stage`            the process, with everything that the commands have left behind
* `Stage.initial`    the stage before the first command
* `Stage.act`        the main thread runs a program, and what comes of it is answered
-/

namespace CallbackLocks

/-! ## values under names -/

/-- Values under names. -/
abbrev Named (α : Type) := List (String × α)

namespace Named

variable {α : Type}

def find? (l : Named α) (name : String) : Option α := List.lookup name l

def erase (l : Named α) (name : String) : Named α := l.filter fun e => e.1 != name

/-- with a value under a name, in place of an older one -/
def put (l : Named α) (name : String) (x : α) : Named α := (name, x) :: l.erase name

/-- with a value under a name, if there is one -/
def keep (l : Named α) (name : Option String) (x : α) : Named α :=
  match name with
  | none => l
  | some n => l.put n x

@[simp] theorem find?_put_self (l : Named α) (name : String) (x : α) :
    (l.put name x).find? name = some x := by
  simp [put, find?]

end Named

/-! ## the stage -/

/-- The process, with everything that the commands have left behind. -/
structure Stage where
  world : World
  /-- what each recorder answers when it is given a server name callback -/
  statuses : List Int64
  strings : ErrorStrings
  handles : Named Handle
  sessions : Named Session
  keptErrors : Named ErrorCode
  keptStacks : Named (List ErrorCode)
  /-- the threads that a thread id callback has named, in order of appearance -/
  threads : List Thread
  serverNames : ServerNames

/-- A recorder: how many locks it reports, and what it answers to a server name callback. -/
structure Recorder where
  locks : Nat
  status : Int64
deriving DecidableEq, Inhabited

namespace Stage

/-- the stage before the first command -/
def initial (edition : Edition) (recorders : List Recorder) (hostLocks : Int32) : Stage where
  world := .initial edition (fun i => (recorders[i]?.map Recorder.locks).getD 0) hostLocks
  statuses := recorders.map Recorder.status
  strings := .builtin
  handles := []
  sessions := []
  keptErrors := []
  keptStacks := []
  threads := []
  serverNames := .empty

def hasRegistry (s : Stage) : Registry → Bool
  | .recorder i => i < s.statuses.length
  | .host => true

def canReach (s : Stage) : Via → Bool
  | .direct => true
  | .registry r => s.hasRegistry r

/-- The main thread runs a program; `f` answers for its result, and a program that gives up answers
for itself. -/
def act {α : Type} (s : Stage) (p : Program α) (f : α → Stage → Answer × Stage) : Answer × Stage :=
  match p.run .main s.world with
  | (.ok x, w) => f x { s with world := w }
  | (.error e, w) => (.abandoned e, { s with world := w })

/-- the main thread runs a program that only has an effect -/
def does (s : Stage) (p : Program Unit) : Answer × Stage := s.act p fun _ s => (.done, s)

/-- the program is run if the registry exists -/
def doesAt (s : Stage) (r : Registry) (p : Registry → Program Unit) : Answer × Stage :=
  if s.hasRegistry r then s.does (p r) else (.badStep, s)

/-- nothing changes but the trace -/
def saw (s : Stage) (c : Call) : Stage := { s with world := s.world.saw (.call c) }

end Stage

end CallbackLocks
