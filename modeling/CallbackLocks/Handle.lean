import CallbackLocks.Lifecycle
import CallbackLocks.Text.Shown

/-!
# Handles

A handle stands for one call of `install`.  Giving it up removes the table that this call installed,
and nothing else: not a table that was there before, nor one that came later.

* `Handle`           the registry, and the generation of the table if the call installed one
* `Handle.install`   the handle of a new call
* `Handle.release`   the handle gives up what it installed, once
* `Handle.drop`, `Handle.uninstall`   the handle goes away
* `Handle.owns`      the table it installed is the one that is there
* `Handle.isReady`   there is a table, or its registry has a locking callback
* `Handle.view`      all that a handle tells about itself
-/

namespace CallbackLocks

open Program (access)

/-- The result of one call of `install`. -/
structure Handle where
  registry : Registry
  generation : Option Nat
deriving DecidableEq, Inhabited

/-- What a handle tells about itself. -/
structure HandleView where
  owns : Bool
  ready : Bool
  lockCount : Option Nat
  shown : Shown

namespace Handle

def install (r : Registry) : Program Handle := do
  let generation ← Lifecycle.install r
  return ⟨r, generation⟩

/-- The handle removes what it installed and has nothing to remove any more. -/
def release (h : Handle) : Program Handle :=
  match h.generation with
  | none => return h
  | some g => do
    Lifecycle.removeIfCurrent h.registry g
    return { h with generation := none }

def drop (h : Handle) : Program Unit := do
  let _ ← h.release
  return ()

/-- The handle removes what it installed, and goes away. -/
def uninstall (h : Handle) : Program Unit := do
  let h' ← h.release
  h'.drop

/-- The table that is installed is the one of this handle.  The generation is compared under the
lifecycle lock; whether there is a table is looked up after that lock has been given back. -/
def owns (h : Handle) : Program Bool :=
  match h.generation with
  | none => return false
  | some g => do
    access .takeLifecycle
    let generation ← access .readGeneration
    access .freeLifecycle
    if generation = g then Lifecycle.isInstalled else return false

/-- There is a locking callback to rely on. -/
def isReady (h : Handle) : Program Bool := do
  if ← Lifecycle.isInstalled then return true
  else
    let callback ← access (.readLocking h.registry)
    return callback.isSome

def describe (h : Handle) : Program Shown := do
  let size ← Lifecycle.lockCount
  return .record "ThreadSafety"
    [("generation", .option (h.generation.map .nat)), ("lock_count", .option (size.map .nat))]

def view (h : Handle) : Program HandleView := do
  let owns ← h.owns
  let ready ← h.isReady
  let lockCount ← Lifecycle.lockCount
  let shown ← h.describe
  return ⟨owns, ready, lockCount, shown⟩

/-- What a handle tells of the table when nobody comes between. -/
theorem run_owns (h : Handle) (who : Thread) (w : World) :
    (h.owns.run who w).1 = .ok (h.generation == some w.generation && w.isInstalled) := by
  obtain ⟨r, g⟩ := h
  cases g with
  | none => rfl
  | some g =>
    show ((if w.generation = g then Lifecycle.isInstalled else pure false : Program Bool).run
      who { w with lifecycle := none }).1 = _
    by_cases hg : w.generation = g
    · have hin : w.tableSize.isSome = w.isInstalled := Option.isSome_map
      rw [if_pos hg, hg, beq_self_eq_true, Bool.true_and, ← hin]
      rfl
    · have hne : (some g == some w.generation) = false :=
        beq_eq_false_iff_ne.mpr fun hs => hg (Option.some.inj hs).symm
      rw [if_neg hg, hne]
      rfl

@[simp] theorem release_of_none (r : Registry) :
    release ⟨r, none⟩ = .done ⟨r, none⟩ := rfl

@[simp] theorem drop_of_none (r : Registry) : drop ⟨r, none⟩ = .done () := rfl

end Handle

end CallbackLocks
