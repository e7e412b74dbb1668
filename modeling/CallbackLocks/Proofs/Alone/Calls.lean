import CallbackLocks.Proofs.Concert.Tables
import CallbackLocks.Session

/-!
# What calls come to

A call that nobody comes between leads to one result and one state.  Both are written down here in
full: what becomes of the table and of the registries, and what an observer sees, event by event.

* `World.see`        events are seen, one after another
* `World.freed`      the lifecycle lock has been given back
* `World.equip`, `World.strip`   a table has come for a registry, or has gone by way of one
* `World.register_registerId`   both callbacks of a registry are set, one after the other
* `Lifecycle.run_install_of_vacant`, `run_install_of_table`, …   the ends that a call of install has
* `Lifecycle.run_teardown`   a removal by name
* `Handle.isCurrent`   the table that is installed is the one of the handle
* `Handle.run_isReady`   what a handle tells when it is asked whether there is a callback
* `Handle.effect`, `Handle.parting`   what giving up a handle comes to, and what is seen of it
* `Handle.run_drop`   **a handle that goes away does that, and no more**
* `Session.run_finish`   what the end of a session comes to
-/

namespace CallbackLocks

open Program

theorem Program.run_step_of {α : Type} {who : Thread} {a : Access} {next : a.Reply → Program α}
    {w : World} {x : a.Reply} (h : (a.perform who w).1 = x) :
    (step a next).run who w = (next x).run who (a.perform who w).2 := by
  rw [run_step, h]

/-! ## states -/

namespace World

variable {w : World} {r : Registry}

/-- the state after events have been seen, one after another -/
def see (w : World) (es : List Event) : World := es.foldl saw w

/-- the state with nobody at work on tables -/
def freed (w : World) : World := { w with lifecycle := none }

/-- the slots of all registries with `s` at `r`, if it keeps any -/
def slotsWith (w : World) (r : Registry) (s : Slots) (r' : Registry) : Slots :=
  if r' = r ∧ w.keeps r = true then s else w.slots r'

/-- A table has come, with our callbacks registered at `r`, and is counted; the count has a bound,
which `World.generation` names. -/
def equip (w : World) (r : Registry) : World :=
  { ({ w with table := some (.new (w.lockCount r)) }.registerId r (some .own)).register r
      (some .own) with generation := w.generation + 1 }

/-- The table has gone, and the slots of `r` have been cleared. -/
def strip (w : World) (r : Registry) : World :=
  { (w.registerId r none).register r none with table := none }

theorem see_eq (w : World) (es : List Event) : w.see es = { w with trace := w.trace ++ es } := by
  induction es generalizing w with
  | nil =>
    rw [List.append_nil]
    rfl
  | cons e es ih =>
    show (w.saw e).see es = _
    rw [ih]
    show ({ w with trace := (w.trace ++ [e]) ++ es } : World) = _
    rw [List.append_assoc]
    rfl

theorem see_append (w : World) (es es' : List Event) : w.see (es ++ es') = (w.see es).see es' :=
  List.foldl_append

/-- Both callbacks of a registry are set, one after the other. -/
theorem register_registerId (w : World) (r : Registry) (f : Option LockCallback)
    (g : Option IdCallback) :
    (w.registerId r g).register r f = { w with slots := w.slotsWith r ⟨f, g⟩ } := by
  by_cases hk : w.keeps r = true
  · have hslots : w.slotsWith r ⟨f, g⟩ = fun r' => if r' = r then ⟨f, g⟩ else w.slots r' :=
      funext fun r' => by simp only [slotsWith, hk, and_true]
    have hk' : ∀ s, (w.setSlots r s).keeps r = true := fun s => by cases r <;> exact hk
    rw [registerId, if_pos hk, register, if_pos (hk' _), hslots]
    refine congrArg (fun slots => { w with slots := slots }) (funext fun r' => ?_)
    by_cases hr : r' = r
    · subst hr
      simp [setSlots]
    · simp [setSlots, hr]
  · have hslots : w.slotsWith r ⟨f, g⟩ = w.slots := funext fun _ => if_neg fun h => hk h.2
    rw [registerId, if_neg hk, register, if_neg hk, hslots]

theorem equip_eq (w : World) (r : Registry) : w.equip r = { w with
    table := some (.new (w.lockCount r)), generation := w.generation + 1,
    slots := w.slotsWith r ⟨some .own, some .own⟩ } := by
  rw [equip, register_registerId]
  rfl

theorem strip_eq (w : World) (r : Registry) :
    w.strip r = { w with table := none, slots := w.slotsWith r .empty } := by
  rw [strip, register_registerId]
  rfl

theorem freed_eq (h : w.lifecycle = none) : w.freed = w := by
  rw [freed, ← h]

theorem freed_see (w : World) (es : List Event) : (w.see es).freed = w.freed.see es := by
  rw [see_eq, see_eq]
  rfl

theorem freed_strip (w : World) (r : Registry) : (w.strip r).freed = w.freed.strip r := by
  rw [strip_eq, strip_eq]
  rfl

theorem strip_see (w : World) (r : Registry) (es : List Event) :
    (w.see es).strip r = (w.strip r).see es := by
  rw [see_eq, see_eq, strip_eq, strip_eq]
  rfl

/-- what is seen when the table is removed by way of `r`, or found to be missing -/
def removing (w : World) (r : Registry) : List Event :=
  match w.tableSize with
  | none => [.log .nothingInstalled]
  | some size => removal r size

end World

/-! ## calls -/

variable {w : World} {r : Registry}

namespace Lifecycle

theorem run_install_of_table {table : LockTable} (h : w.table = some table) (who : Thread) :
    (install r).run who w = (.ok none, w.freed.see [.log .tablePresent]) := by
  have hload : (Access.loadTable.perform who (Access.takeLifecycle.perform who w).2).1
      = some table.size := congrArg (Option.map LockTable.size) h
  exact (run_step _ _ _ _).trans (run_step_of hload)

theorem run_install_of_callback {f : LockCallback} (ht : w.table = none)
    (hf : w.locking r = some f) (who : Thread) : (install r).run who w
      = (.ok none, w.freed.see [.call (.readLocking r), .log .callbackPresent]) := by
  have hload : (Access.loadTable.perform who (Access.takeLifecycle.perform who w).2).1 = none :=
    congrArg (Option.map LockTable.size) ht
  refine (run_step _ _ _ _).trans ((run_step_of hload).trans ?_)
  refine (run_step_of (by exact hf)).trans ?_
  rfl

theorem run_install_of_count (ht : w.table = none) (hf : w.locking r = none)
    (hn : ¬ w.lockCount r < maxLocks) (who : Thread) : (install r).run who w
      = (.error .capacityOverflow,
        w.freed.see [.call (.readLocking r), .call (.countLocks r)]) := by
  have hload : (Access.loadTable.perform who (Access.takeLifecycle.perform who w).2).1 = none :=
    congrArg (Option.map LockTable.size) ht
  refine (run_step _ _ _ _).trans ((run_step_of hload).trans ?_)
  refine (run_step_of (by exact hf)).trans ?_
  show (if w.lockCount r < maxLocks then _ else _ : Program (Option Nat)).run _ _ = _
  rw [if_neg hn]
  rfl

theorem run_install_of_vacant (h : w.IsVacant r) (who : Thread) : (install r).run who w
      = (.ok (some (w.generation + 1)), (w.freed.equip r).see
        (.call (.readLocking r) :: .call (.countLocks r) :: registration r (w.lockCount r))) := by
  have hload : (Access.loadTable.perform who (Access.takeLifecycle.perform who w).2).1 = none :=
    congrArg (Option.map LockTable.size) h.table
  refine (run_step _ _ _ _).trans ((run_step_of hload).trans ?_)
  refine (run_step_of (by exact h.locking)).trans ?_
  show (if w.lockCount r < maxLocks then _ else _ : Program (Option Nat)).run _ _ = _
  rw [if_pos h.count]
  obtain ⟨edition⟩ := w
  cases r with
  | recorder i => rfl
  | host => cases edition <;> rfl

theorem run_remove (r : Registry) (who : Thread) (w : World) : (remove r).run who w
      = (.ok (), (if w.isInstalled then w.strip r else w).see (w.removing r)) := by
  obtain ⟨edition, table⟩ := w
  cases table with
  | none => rfl
  | some table =>
    cases r with
    | recorder i => rfl
    | host => cases edition <;> rfl

theorem run_teardown (r : Registry) (who : Thread) (w : World) : (teardown r).run who w
      = (.ok (), (if w.isInstalled then w.freed.strip r else w.freed).see (w.removing r)) := by
  refine (run_step _ _ _ _).trans ((run_bind who (remove r) _ _).trans ?_)
  rw [run_remove]
  refine congrArg (Prod.mk (Except.ok ())) ((World.freed_see _ _).trans ?_)
  show World.see (World.freed (if w.isInstalled then _ else _)) (w.removing r) = _
  cases w.isInstalled with
  | false => rfl
  | true =>
    show ((World.strip _ r).freed).see _ = _
    rw [World.freed_strip]
    rfl

end Lifecycle

/-! ## handles -/

namespace Handle

def isCurrent (h : Handle) (w : World) : Bool :=
  h.generation == some w.generation && w.isInstalled

/-- what giving up a handle comes to -/
def effect (h : Handle) (w : World) : World := if h.isCurrent w then w.strip h.registry else w

/-- what is seen when a handle is given up -/
def parting (h : Handle) (w : World) : List Event :=
  if h.isCurrent w then w.removing h.registry
  else h.generation.toList.map fun g => .log (.tableGone g)

/-- Giving up a handle comes to nothing but for the table and the registries. -/
theorem effect_eq (h : Handle) (w : World) :
    ∃ table slots, h.effect w = { w with table := table, slots := slots } := by
  unfold effect
  split
  · exact ⟨_, _, w.strip_eq h.registry⟩
  · exact ⟨_, _, rfl⟩

theorem run_install (r : Registry) (who : Thread) (w : World) : (install r).run who w
      = (((Lifecycle.install r).run who w).1.map (Handle.mk r),
        ((Lifecycle.install r).run who w).2) := by
  refine (run_bind who (Lifecycle.install r) _ w).trans ?_
  cases (Lifecycle.install r).run who w with
  | mk x w' => cases x <;> rfl

theorem isCurrent_see (h : Handle) (w : World) (es : List Event) :
    h.isCurrent (w.see es) = h.isCurrent w := by
  rw [World.see_eq]
  rfl

theorem effect_see (h : Handle) (w : World) (es : List Event) :
    h.effect (w.see es) = (h.effect w).see es := by
  unfold effect
  rw [isCurrent_see]
  split
  · exact w.strip_see h.registry es
  · rfl

theorem parting_see (h : Handle) (w : World) (es : List Event) :
    h.parting (w.see es) = h.parting w := by
  rw [World.see_eq]
  rfl

theorem run_isReady (h : Handle) (who : Thread) (w : World) :
    (h.isReady.run who w).1 = .ok (w.isInstalled || (w.locking h.registry).isSome) := by
  show ((if w.tableSize.isSome then pure true
    else step (.readLocking h.registry) fun f => pure f.isSome : Program Bool).run who w).1 = _
  rw [← World.isInstalled_eq]
  cases w.isInstalled <;> rfl

theorem run_isCurrent (g : Nat) (r : Registry) (who : Thread) (w : World) :
    (Lifecycle.isCurrent g).run who w = (.ok (isCurrent ⟨r, some g⟩ w), w) := by
  show (if w.generation = g then Lifecycle.isInstalled else pure false : Program Bool).run who w
    = _
  by_cases hg : w.generation = g
  · rw [if_pos hg, isCurrent, hg, beq_self_eq_true, Bool.true_and, World.isInstalled_eq]
    rfl
  · have hne : (some g == some w.generation) = false :=
      beq_eq_false_iff_ne.mpr fun hs => hg (Option.some.inj hs).symm
    rw [if_neg hg, isCurrent, hne]
    rfl

theorem run_removeIfCurrent (r : Registry) (g : Nat) (who : Thread) (w : World) :
    (Lifecycle.removeIfCurrent r g).run who w
      = (.ok (), (effect ⟨r, some g⟩ w.freed).see (parting ⟨r, some g⟩ w)) := by
  have hcurrent : (Lifecycle.isCurrent g).run who (Access.takeLifecycle.perform who w).2
      = (.ok (isCurrent ⟨r, some g⟩ w), (Access.takeLifecycle.perform who w).2) :=
    run_isCurrent g r who _
  have heffect : effect ⟨r, some g⟩ w.freed
      = if isCurrent ⟨r, some g⟩ w then w.freed.strip r else w.freed := rfl
  refine (run_step _ _ _ _).trans ((run_bind who (Lifecycle.isCurrent g) _ _).trans ?_)
  rw [hcurrent, heffect, parting]
  cases hc : isCurrent ⟨r, some g⟩ w with
  | false => rfl
  | true =>
    have hin : w.isInstalled = true := (Bool.and_eq_true _ _ ▸ hc).2
    refine (Lifecycle.run_teardown r who w).trans ?_
    rw [hin]
    rfl

theorem run_release (hfree : w.lifecycle = none) (h : Handle) (who : Thread) :
    h.release.run who w = (.ok ⟨h.registry, none⟩, (h.effect w).see (h.parting w)) := by
  obtain ⟨r, g⟩ := h
  cases g with
  | none => rfl
  | some g =>
    refine (run_bind _ _ _ _).trans ?_
    rw [run_removeIfCurrent, World.freed_eq hfree]
    rfl

/-- **A handle that goes away removes the table that it installed, and nothing else.** -/
theorem run_drop (hfree : w.lifecycle = none) (h : Handle) (who : Thread) :
    h.drop.run who w = (.ok (), (h.effect w).see (h.parting w)) := by
  refine (run_bind _ _ _ _).trans ?_
  rw [run_release hfree]
  rfl

end Handle

/-! ## sessions -/

namespace Session

/-- what is seen when the host library drops what it loaded -/
def sweeping (w : World) : Edition → List Event
  | .modern => []
  | .legacy => [.call (.cleanAlgorithms w.isInstalled), .call .cleanExtraData,
      .call .freeErrorStrings]

theorem run_cleanUp (e : Edition) (who : Thread) (w : World) :
    (cleanUp e).run who w = (.ok (), w.see (sweeping w e)) := by
  cases e <;> rfl

theorem run_finish (hfree : w.lifecycle = none) (e : Edition) (x : Session) (who : Thread) :
    (x.finish e).run who w = (.ok (), ({ x.handle.effect w with claimed := false } : World).see
      (sweeping w e ++ x.handle.parting w ++ [.log .ended])) := by
  have hfree' : (w.see (sweeping w e)).lifecycle = none := by
    rw [World.see_eq]
    exact hfree
  refine (run_bind who (cleanUp e) _ w).trans ?_
  rw [run_cleanUp]
  refine (run_bind who x.handle.release _ _).trans ?_
  rw [Handle.run_release hfree', Handle.effect_see, Handle.parting_see, ← World.see_append,
    World.see_append _ _ [.log .ended]]
  generalize sweeping w e ++ x.handle.parting w = es
  rw [World.see_eq _ es, World.see_eq _ es]
  rfl

end Session

end CallbackLocks
