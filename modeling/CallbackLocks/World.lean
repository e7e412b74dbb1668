import CallbackLocks.Callback
import CallbackLocks.Errors.Queue
import CallbackLocks.LockTable
import CallbackLocks.Trace

/-!
# The state of the process

* `World`            all that the operations share: the one lock table and what guards it, the
                     registries, the host library, the error queues and the trace
* `World.initial`    how a process starts
* `World.locking`, `World.lockCount`   what a registry answers
* `World.register`, `registerId`       a slot of a registry is set

A modern host reports one lock, holds no callback and keeps none that it is given.
-/

namespace CallbackLocks

/-- All that the operations of a process share. -/
structure World where
  edition : Edition
  table : Option LockTable
  /-- how many tables have been installed so far, which is the generation of the newest; a word of
  64 bits counts them, so a process with fewer than `2 ^ 64` installations is what is described -/
  generation : Nat
  /-- the thread that installs or removes a table just now -/
  lifecycle : Option Thread
  /-- the one session is claimed -/
  claimed : Bool
  /-- what the slots of a registry hold -/
  slots : Registry → Slots
  reported : Nat → Nat
  hostLocks : Int32
  /-- what a legacy host answers when it is started -/
  startCode : Int32
  /-- the errors that a legacy host leaves behind when it is started -/
  startErrors : List ErrorCode
  seeded : Bool
  queues : Thread → ErrorQueue
  /-- what an observer has seen, in order -/
  trace : List Event

namespace World

/-- The state at the start: nothing installed, nothing registered, nothing to read. -/
def initial (edition : Edition) (reported : Nat → Nat) (hostLocks : Int32) : World where
  edition := edition
  table := none
  generation := 0
  lifecycle := none
  claimed := false
  slots := fun _ => .empty
  reported := reported
  hostLocks := hostLocks
  startCode := 1
  startErrors := []
  seeded := true
  queues := fun _ => .empty
  trace := []

instance : Inhabited World := ⟨initial .modern (fun _ => 0) 0⟩

/-! ## reading -/

def isInstalled (w : World) : Bool := w.table.isSome

def tableSize (w : World) : Option Nat := w.table.map LockTable.size

/-- the registry keeps what is registered with it -/
def keeps (w : World) : Registry → Bool
  | .recorder _ => true
  | .host => w.edition == .legacy

/-- the locking callback that a registry holds -/
def locking (w : World) (r : Registry) : Option LockCallback :=
  if w.keeps r then (w.slots r).locking else none

/-- the thread id callback that a registry holds -/
def idCallback (w : World) (r : Registry) : Option IdCallback :=
  if w.keeps r then (w.slots r).id else none

def lockCount (w : World) : Registry → Nat
  | .recorder i => w.reported i
  | .host => match w.edition with
    | .modern => 1
    | .legacy => w.hostLocks.toNatClampNeg

/-- `who` waits for a lock of the table -/
def isWaiting (w : World) (who : Thread) : Bool :=
  match w.table with
  | none => false
  | some t => t.isWaiting who

/-- some thread waits for a lock of the table -/
def hasWaiting (w : World) : Bool :=
  match w.table with
  | none => false
  | some t => t.hasWaiting

/-! ## writing -/

/-- the state with one more event seen -/
def saw (w : World) (e : Event) : World := { w with trace := w.trace ++ [e] }

def setSlots (w : World) (r : Registry) (s : Slots) : World :=
  { w with slots := fun r' => if r' = r then s else w.slots r' }

/-- the state with `callback` in the locking slot of `r` -/
def register (w : World) (r : Registry) (callback : Option LockCallback) : World :=
  if w.keeps r then w.setSlots r { w.slots r with locking := callback } else w

/-- the state with `callback` in the thread id slot of `r` -/
def registerId (w : World) (r : Registry) (callback : Option IdCallback) : World :=
  if w.keeps r then w.setSlots r { w.slots r with id := callback } else w

/-- the state with another number of locks that a recorder reports -/
def setReported (w : World) (recorder locks : Nat) : World :=
  { w with reported := fun i => if i = recorder then locks else w.reported i }

def setQueue (w : World) (who : Thread) (q : ErrorQueue) : World :=
  { w with queues := fun t => if t = who then q else w.queues t }

theorem slots_setSlots (w : World) (r r' : Registry) (s : Slots) :
    (w.setSlots r s).slots r' = if r' = r then s else w.slots r' := rfl

theorem queues_setQueue (w : World) (who t : Thread) (q : ErrorQueue) :
    (w.setQueue who q).queues t = if t = who then q else w.queues t := rfl

@[simp] theorem keeps_recorder (w : World) (i : Nat) : w.keeps (.recorder i) = true := rfl

theorem locking_register (w : World) (r r' : Registry) (callback : Option LockCallback)
    (h : w.keeps r = true) :
    (w.register r callback).locking r' = if r' = r then callback else w.locking r' := by
  have hk : ∀ s, (w.setSlots r s).keeps r' = w.keeps r' := fun s => by cases r' <;> rfl
  simp only [register, h, if_true, locking, hk, slots_setSlots]
  by_cases hr : r' = r
  · subst hr; simp [h]
  · simp [hr]

end World

end CallbackLocks
