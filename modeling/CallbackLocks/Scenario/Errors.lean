import CallbackLocks.Scenario.Stage

/-!
# Errors in a scenario

* `Stage.push`       an error at the end of the queue of a worker, once or several times
* `Stage.load`       one more error string
* `Stage.pop`, `Stage.drain`   errors read from the queue of a worker, and kept under a name
* `Stage.showError`, `showStack`, `showFailure`   what is said of them, with the strings as they are
* `Stage.compareErrors`, `compareStacks`   two of them compared, and one with a copy of itself
-/

namespace CallbackLocks.Stage

/-- an error at the end of the queue of a worker -/
def push (s : Stage) (worker : Nat) (code : ErrorCode) (times : Nat) : Answer × Stage :=
  let who := Thread.worker worker
  let q := (s.world.queues who).pushTimes code times
  (.done, { s with world := s.world.setQueue who q })

def load (s : Stage) (library reason : Nat) (bytes : List UInt8) : Answer × Stage :=
  (.done, { s with strings := s.strings.load library reason bytes })

/-- the oldest error of a worker -/
def pop (s : Stage) (worker : Nat) (name : Option String) : Answer × Stage :=
  let who := Thread.worker worker
  let (code, q) := (s.world.queues who).pop
  let s := { s with world := s.world.setQueue who q }
  match code with
  | none => (.popped none, s)
  | some c =>
    (.popped (some (s.strings.names.errorView c)), { s with keptErrors := s.keptErrors.keep name c })

/-- a stack shown, and kept under a name -/
def keepStack (s : Stage) (name : Option String) (cs : List ErrorCode) : Answer × Stage :=
  (.stack (s.strings.names.stackView cs), { s with keptStacks := s.keptStacks.keep name cs })

/-- the errors of a worker up to the first zero -/
def drain (s : Stage) (worker : Nat) (name : Option String) : Answer × Stage :=
  let who := Thread.worker worker
  let (cs, q) := (s.world.queues who).drain
  { s with world := s.world.setQueue who q }.keepStack name cs

def showError (s : Stage) (name : String) : Answer × Stage :=
  match s.keptErrors.find? name with
  | none => (.badStep, s)
  | some c => (.error (s.strings.names.errorView c), s)

def showStack (s : Stage) (name : String) : Answer × Stage :=
  match s.keptStacks.find? name with
  | none => (.badStep, s)
  | some cs => (.stack (s.strings.names.stackView cs), s)

/-- two values that were kept, compared; and the first with a copy of itself -/
def compare {α : Type} [DecidableEq α] (s : Stage) (kept : Named α) (a b : String) :
    Answer × Stage :=
  match kept.find? a, kept.find? b with
  | some x, some y => (.equal (x = y) (x = x), s)
  | _, _ => (.badStep, s)

def showFailure (s : Stage) (f : Failure) : Answer × Stage :=
  (.failure (s.strings.names.failureView f), s)

/-- the failure around a stack that was kept -/
def showRefused (s : Stage) (name : String) : Answer × Stage :=
  match s.keptStacks.find? name with
  | none => (.badStep, s)
  | some cs => s.showFailure (.refused cs)

end CallbackLocks.Stage
