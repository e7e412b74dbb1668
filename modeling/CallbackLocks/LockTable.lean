import CallbackLocks.Thread

/-!
# A table of numbered locks

A lock is taken in one call and given back in another, and it remembers no owner: whoever gives
it back frees it, or hands it to a thread that waits for it.  A thread that asks for a lock that
is held stands in line for it, and its call returns only when the lock is handed over.

* `Lock`             free, or held with the line of threads that wait for it
* `Lock.take`        one more thread asks: it gets the lock or goes to the end of the line
* `Lock.give`        the lock is given back: a thread of the line gets it, or it is free
* `LockTable`        locks `0, 1, …`, all free when the table is made
* `Fault`            a call that breaks the locking contract; nothing can be answered to it
* `Outcome`          how a call ends: it returned (and may have let another call return), or its
                     thread waits
* `LockTable.acquire`, `LockTable.release`   take and give back lock `n`

A lock that is given back goes to the thread that has waited longest.  `LockTable.releaseTo` leaves
that choice open, for what holds whichever thread of the line is served.
-/

namespace CallbackLocks

/-! ## one lock -/

/-- A lock, with the threads that wait for it, the longest waiting first. -/
inductive Lock where
  | free
  | held (line : List Thread)
deriving DecidableEq, Inhabited

namespace Lock

def line : Lock → List Thread
  | free => []
  | held ws => ws

def isHeld : Lock → Bool
  | free => false
  | held _ => true

/-- The lock after `who` has asked for it: held by `who` if it was free, else with `who` at the
end of the line. -/
def take (who : Thread) : Lock → Lock
  | free => held []
  | held ws => held (ws ++ [who])

/-- The lock after it was given back, with the thread that has it now.  Of a line of `k` threads
the one at place `place` modulo `k` is served. -/
def give (place : Nat) : Lock → Option Thread × Lock
  | free => (none, free)
  | held ws => match ws[place % ws.length]? with
    | none => (none, free)
    | some w => (some w, held (ws.eraseIdx (place % ws.length)))

@[simp] theorem line_free : free.line = [] := rfl
@[simp] theorem line_held (ws : List Thread) : (held ws).line = ws := rfl
@[simp] theorem isHeld_free : free.isHeld = false := rfl
@[simp] theorem isHeld_held (ws : List Thread) : (held ws).isHeld = true := rfl

@[simp] theorem take_free (who : Thread) : free.take who = held [] := rfl
@[simp] theorem take_held (who : Thread) (ws : List Thread) :
    (held ws).take who = held (ws ++ [who]) := rfl

@[simp] theorem isHeld_take (who : Thread) (l : Lock) : (l.take who).isHeld = true := by
  cases l <;> rfl

@[simp] theorem give_held_nil (place : Nat) : (held []).give place = (none, free) := rfl

@[simp] theorem give_held_cons (w : Thread) (ws : List Thread) :
    (held (w :: ws)).give 0 = (some w, held ws) := rfl

end Lock

/-! ## faults and outcomes -/

/-- A call that breaks the locking contract.  The caller cannot be told: the process ends. -/
inductive Fault where
  /-- a lock was asked for with no table to find it in -/
  | noTable (index : Int32)
  /-- the number of the lock is negative -/
  | negativeIndex (index : Int32)
  /-- the table has no lock of that number -/
  | outOfRange (index size : Nat)
  /-- a lock was given back that nobody holds -/
  | notHeld (index : Nat)
deriving DecidableEq, Inhabited

namespace Fault

def message : Fault → String
  | noTable n => s!"lock {n} requested with no lock table installed"
  | negativeIndex n => s!"negative lock index {n}"
  | outOfRange n size => s!"lock {n} out of range for {size} locks"
  | notHeld n => s!"lock {n} already unlocked"

/-- the last line that the process writes -/
def report (f : Fault) : String :=
  s!"BUG: openssl-locking {f.message}, aborting"

end Fault

/-- How a call on a lock ends. -/
inductive Outcome where
  /-- the call returned, and so did the waiting call of `woken` -/
  | returned (woken : Option Thread)
  /-- the thread now waits for the lock -/
  | blocked
deriving DecidableEq, Inhabited

def Outcome.woken : Outcome → Option Thread
  | .returned w => w
  | .blocked => none

/-! ## the table -/

/-- The locks `0, 1, …` of a table. -/
structure LockTable where
  locks : Array Lock
deriving DecidableEq, Inhabited

namespace LockTable

/-- a table of `size` free locks -/
def new (size : Nat) : LockTable := ⟨Array.replicate size .free⟩

def size (t : LockTable) : Nat := t.locks.size

/-- lock `n` is held; a lock that the table does not have is not -/
def isHeld (t : LockTable) (n : Nat) : Bool :=
  match t.locks[n]? with
  | none => false
  | some l => l.isHeld

/-- the threads that wait for lock `n`, the longest waiting first -/
def line (t : LockTable) (n : Nat) : List Thread :=
  match t.locks[n]? with
  | none => []
  | some l => l.line

def isWaiting (t : LockTable) (who : Thread) : Bool := t.locks.any fun l => l.line.contains who

/-- some thread waits for one of the locks -/
def hasWaiting (t : LockTable) : Bool := t.locks.any fun l => !l.line.isEmpty

def setLock (t : LockTable) (n : Nat) (l : Lock) : LockTable := ⟨t.locks.setIfInBounds n l⟩

def acquire (t : LockTable) (who : Thread) (n : Nat) : Except Fault (Outcome × LockTable) :=
  match t.locks[n]? with
  | none => .error (.outOfRange n t.size)
  | some l => .ok (if l.isHeld then .blocked else .returned none, t.setLock n (l.take who))

/-- Lock `n` is given back, and the thread at `place` of its line is served. -/
def releaseTo (t : LockTable) (place n : Nat) : Except Fault (Outcome × LockTable) :=
  match t.locks[n]? with
  | none => .error (.outOfRange n t.size)
  | some l =>
    if l.isHeld then
      .ok (.returned (l.give place).1, t.setLock n (l.give place).2)
    else .error (.notHeld n)

def release (t : LockTable) (n : Nat) : Except Fault (Outcome × LockTable) := t.releaseTo 0 n

@[simp] theorem size_new (size : Nat) : (new size).size = size := by simp [new, LockTable.size]

@[simp] theorem size_setLock (t : LockTable) (n : Nat) (l : Lock) :
    (t.setLock n l).size = t.size := by simp [setLock, size]

@[simp] theorem isHeld_new (size n : Nat) : (new size).isHeld n = false := by
  by_cases h : n < size <;> simp [isHeld, new, h]

@[simp] theorem line_new (size n : Nat) : (new size).line n = [] := by
  by_cases h : n < size <;> simp [line, new, h]

theorem getElem?_setLock (t : LockTable) (n m : Nat) (l : Lock) :
    (t.setLock n l).locks[m]? =
      if n = m then (if n < t.size then some l else none) else t.locks[m]? := by
  simp only [setLock, size, Array.getElem?_setIfInBounds]; congr

theorem acquire_of_getElem? {t : LockTable} {who : Thread} {n : Nat} {l : Lock}
    (h : t.locks[n]? = some l) :
    t.acquire who n
      = .ok (if l.isHeld then .blocked else .returned none, t.setLock n (l.take who)) := by
  simp [acquire, h]

theorem release_of_held {t : LockTable} {n : Nat} {ws : List Thread}
    (h : t.locks[n]? = some (.held ws)) :
    t.release n = .ok (.returned ws.head?, t.setLock n (if ws = [] then .free else .held ws.tail))
    := by
  cases ws <;> simp [release, releaseTo, h]

theorem release_of_free {t : LockTable} {n : Nat} (h : t.locks[n]? = some .free) :
    t.release n = .error (.notHeld n) := by
  simp [release, releaseTo, h]

end LockTable

end CallbackLocks
