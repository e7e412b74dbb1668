import CallbackLocks.LockTable
import CallbackLocks.Text.Shown

/-!
# Scenarios of a lock table alone

* `LockCall`         what a thread can ask of a table: a lock, or that a lock be given back
* `LockTable.callBy`   the call of a thread, who is refused while it waits for a lock
* `TableCommand`     a look at the table, or a call of a worker
* `TableAnswer`      what a command answers
* `LockTable.step`   what one command answers, and the table after it
* `LockTable.replies`   what comes of commands, up to a fault
-/

namespace CallbackLocks

/-- A call on a lock of a table. -/
inductive LockCall where
  | acquire (index : Nat)
  | release (index : Nat)
deriving DecidableEq, Inhabited

/-- One thing done to a lock table. -/
inductive TableCommand where
  | size
  | describe
  | acquire (worker index : Nat)
  | release (worker index : Nat)
  /-- a command that names something that does not exist -/
  | unknown
deriving DecidableEq, Inhabited

/-- What a command answers. -/
inductive TableAnswer where
  | size (n : Nat)
  | shown (x : Shown)
  | called (o : Outcome)
  /-- the thread that was to make the call waits for a lock -/
  | threadBlocked
  | badStep
  /-- the process has ended -/
  | ended (f : Fault)

namespace LockTable

def describe (t : LockTable) : Shown := .record "LockTable" [("len", .nat t.size)]

/-- What comes of a call by `who`. -/
def perform (t : LockTable) (who : Thread) : LockCall → Except Fault (Outcome × LockTable)
  | .acquire n => t.acquire who n
  | .release n => t.release n

/-- A call of a thread, who must not be waiting. -/
def callBy (t : LockTable) (who : Thread) (c : LockCall) : Except Fault (TableAnswer × LockTable) :=
  if t.isWaiting who then .ok (.threadBlocked, t)
  else match t.perform who c with
    | .error f => .error f
    | .ok (o, t) => .ok (.called o, t)

/-- What a command answers, and the table after it. -/
def step (t : LockTable) : TableCommand → Except Fault (TableAnswer × LockTable)
  | .size => .ok (.size t.size, t)
  | .describe => .ok (.shown t.describe, t)
  | .acquire worker n => t.callBy (.worker worker) (.acquire n)
  | .release worker n => t.callBy (.worker worker) (.release n)
  | .unknown => .ok (.badStep, t)

/-- What comes of commands, one after another.  A fault is the last thing that comes. -/
def replies (t : LockTable) : List TableCommand → List TableAnswer
  | [] => []
  | c :: cs => match t.step c with
    | .error f => [.ended f]
    | .ok (a, t) => a :: t.replies cs

end LockTable

end CallbackLocks
