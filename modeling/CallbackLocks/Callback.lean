/-!
# Callbacks and the slots that hold them

A cryptographic library that leaves locking to its caller has two slots: one for the callback
that takes and gives back its locks, one for the callback that names the calling thread.

* `LockCallback`, `IdCallback`   what a slot can hold: our own callback, or someone else's
* `Slots`            the two slots of a library
* `Registry`         where slots are: a recorder, which stores what it is given and reports any
                     number of locks, or the host library of the process
* `Edition`          the two kinds of host: a `legacy` one has slots and lifecycle calls, a
                     `modern` one locks by itself and ignores what is registered
* `Mode`             the bits of a mode; the lowest one tells taking from giving back
-/

namespace CallbackLocks

/-! ## callbacks -/

/-- A callback in a locking slot. -/
inductive LockCallback where
  /-- our dispatcher -/
  | own
  /-- a callback of another party -/
  | foreign (number : Nat)
deriving DecidableEq, Inhabited

/-- A callback in a thread id slot. -/
inductive IdCallback where
  /-- names the calling thread -/
  | own
  /-- a callback of another party -/
  | foreign
deriving DecidableEq, Inhabited

def LockCallback.name : LockCallback → String
  | own => "shim"
  | foreign k => s!"foreign{k}"

def IdCallback.name : IdCallback → String
  | own => "shim"
  | foreign => "foreign"

def lockCallbackName : Option LockCallback → String
  | none => "none"
  | some c => c.name

def idCallbackName : Option IdCallback → String
  | none => "none"
  | some c => c.name

/-- what the other party's thread id callback answers -/
def foreignThreadId : Nat := 424242

/-! ## slots and registries -/

/-- The two callback slots of a library. -/
structure Slots where
  locking : Option LockCallback
  id : Option IdCallback
deriving DecidableEq, Inhabited

namespace Slots

def empty : Slots := ⟨none, none⟩

def text (s : Slots) : String :=
  lockCallbackName s.locking ++ "/" ++ idCallbackName s.id

end Slots

/-- A place where callbacks are registered. -/
inductive Registry where
  /-- a recorder, by its number -/
  | recorder (number : Nat)
  /-- the host library of the process -/
  | host
deriving DecidableEq, Inhabited

/-- The two kinds of host library. -/
inductive Edition where
  /-- locks by itself: reports one lock, registers nothing, needs no bring-up -/
  | modern
  /-- leaves locking to its caller -/
  | legacy
deriving DecidableEq, Inhabited

/-! ## modes -/

namespace Mode

def lock : Int32 := 1
def unlock : Int32 := 2
/-- for reading; of no effect here -/
def read : Int32 := 4
/-- for writing; of no effect here -/
def write : Int32 := 8

/-- A call takes the lock when the lowest bit of its mode is set, whatever else is. -/
def takes (mode : Int32) : Bool := mode &&& lock != 0

end Mode

end CallbackLocks
