import CallbackLocks.Race

/-!
# The answers of a scenario

* `ErrorView`, `StackView`, `FailureView`   an error, a stack of errors and a failure with all that
                     is said of them
* `Answer`           what a command answers
* `Report`           an answer, with what an observer has seen and how the state looks afterwards
* `Reply`            a report, or the fault that ended the process
-/

namespace CallbackLocks

/-! ## views -/

/-- An error with all that is said of it. -/
structure ErrorView where
  code : ErrorCode
  library : Option String
  reason : Option String
  display : String
  shown : Shown

/-- A stack of errors with all that is said of it. -/
structure StackView where
  errors : List ErrorView
  display : String
  shown : Shown

/-- A failure with all that is said of it. -/
structure FailureView where
  name : String
  message : String
  shown : Shown
  hasSource : Bool

namespace ErrorNames

def errorView (n : ErrorNames) (c : ErrorCode) : ErrorView :=
  ⟨c, n.library c, n.reason c, n.display c, n.shown c⟩

def stackView (n : ErrorNames) (cs : List ErrorCode) : StackView :=
  ⟨cs.map n.errorView, n.displayStack cs, n.shownStack cs⟩

def failureView (n : ErrorNames) (f : Failure) : FailureView :=
  ⟨f.name, f.message n, f.shown n, f.hasSource⟩

end ErrorNames

/-! ## answers -/

/-- What a command answers. -/
inductive Answer where
  /-- the command names something that does not exist -/
  | badStep
  /-- some thread waits, and the command is not possible meanwhile -/
  | threadsBlocked
  /-- the thread that was to make the call waits itself -/
  | threadBlocked
  | done
  | abandoned (why : Abandoned)
  /-- the call of a locking callback ended so -/
  | called (o : Outcome)
  /-- there is no callback to call -/
  | noCallback
  | handle (v : HandleView)
  | slots (locks : Nat) (locking : Option LockCallback)
  /-- the thread has that number among those seen; `same` tells whether it is the calling one -/
  | threadId (number : Nat) (same : Bool)
  | foreignId (value : Nat)
  | contest (counter peak : Nat)
  | race (result : RaceResult)
  | constants (values : List (String × Int)) (host : String)
  | exported (value : Nat)
  | failure (v : FailureView)
  | session (shown : Shown) (handle : HandleView)
  | popped (v : Option ErrorView)
  | error (v : ErrorView)
  | stack (v : StackView)
  | equal (same copySame : Bool)
  | status (code : Int64)
  | context (number : Nat)
  | client (number : Nat)
  | host (name : Option (List UInt8))

/-- the thread whose waiting call a command let return -/
def Answer.woken : Answer → Option Thread
  | called o => o.woken
  | _ => none

/-! ## reports -/

/-- An answer, with what an observer has seen and how the state looks afterwards. -/
structure Report where
  answer : Answer
  woken : Option Thread
  logs : List String
  calls : List String
  installed : Bool
  lockCount : Option Nat
  /-- what the slots of every recorder hold -/
  recorders : List Slots
  /-- what the slots of the host hold, if it has any -/
  hostSlots : Option Slots

/-- What comes of a command. -/
inductive Reply where
  | report (r : Report)
  /-- the process has ended -/
  | ended (f : Fault)

end CallbackLocks
