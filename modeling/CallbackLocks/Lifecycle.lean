import CallbackLocks.Program

/-!
# Installing and removing the lock table

A process has at most one lock table.  It comes and goes under the lifecycle lock, and while it is
installed the callbacks are registered at the registry that it was installed into.

* `install r`            makes a table of as many locks as `r` asks for and registers our callbacks,
                         unless there is a table or `r` has a locking callback
* `teardown r`           removes the table, whoever installed it, and clears the slots of `r`
* `removeIfCurrent r g`   does so only if the table is still the one of generation `g`
* `lockCount`            the size of the table

The table is there before the callbacks are registered and stays until they are cleared.  A table
of `maxLocks` locks or more cannot be made; that is found out before anything is registered.
-/

namespace CallbackLocks

open Program (access)

namespace Lifecycle

/-- no table can have as many locks, which is half of what a word can count -/
def maxLocks : Nat := 0x8000000000000000

def log (l : LogLine) : Program Unit := access (.log l)

/-- The generation of the table, if this call installed one. -/
def install (r : Registry) : Program (Option Nat) := do
  access .takeLifecycle
  match ← access .loadTable with
  | some _ =>
    log .tablePresent
    access .freeLifecycle
    return none
  | none =>
    match ← access (.readLocking r) with
    | some _ =>
      log .callbackPresent
      access .freeLifecycle
      return none
    | none =>
      let size ← access (.countLocks r)
      if size < maxLocks then
        access (.publishTable size)
        access (.setId r (some .own))
        access (.setLocking r (some .own))
        access .countInstall
        log (.tableInstalled size)
        let generation ← access .readGeneration
        access .freeLifecycle
        return some generation
      else
        access .freeLifecycle
        .abandon .capacityOverflow

/-- The table is removed and the slots of `r` are cleared.  Callers hold the lifecycle lock. -/
def remove (r : Registry) : Program Unit := do
  match ← access .loadTable with
  | none => log .nothingInstalled
  | some size =>
    access (.setId r none)
    access (.setLocking r none)
    access .withdrawTable
    log (.tableRemoved size)

/-- The table is removed, whoever installed it. -/
def teardown (r : Registry) : Program Unit := do
  access .takeLifecycle
  remove r
  access .freeLifecycle

/-- The table of generation `g` is the one that is installed.  Callers hold the lifecycle lock. -/
def isCurrent (g : Nat) : Program Bool := do
  let generation ← access .readGeneration
  if generation = g then
    let size ← access .loadTable
    return size.isSome
  else return false

/-- The table is removed if it is still the one of generation `g`. -/
def removeIfCurrent (r : Registry) (g : Nat) : Program Unit := do
  access .takeLifecycle
  if ← isCurrent g then remove r else log (.tableGone g)
  access .freeLifecycle

def lockCount : Program (Option Nat) := do
  access .takeLifecycle
  let size ← access .loadTable
  access .freeLifecycle
  return size

def isInstalled : Program Bool := do
  let size ← access .loadTable
  return size.isSome

end Lifecycle

end CallbackLocks
