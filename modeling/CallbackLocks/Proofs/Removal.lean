import Mathlib
import CallbackLocks.Proofs.Alone.Effects
import CallbackLocks.Proofs.Ownership

/-!
# Handles that go away

Of the handles that are alive at most one owns the table.  When that one goes away, the table goes
as it does with a removal by name; when another one goes away, nothing happens.  So it makes no
difference in which order handles go away.

* `Event.isTold`, `World.told`   log lines and slots that are set
* `Holding.prize`, `Holding.gone`   a handle or session as it is given up, and the state after that
* `World.Agrees`     two states that differ in queues and in the order of what has been told
* `World.Agrees.swap`   two handles, of which one at most owns the table, change places
* `World.Agrees.of_perm`   any number of handles do
* `Workshop.removals_are_orderless`   **what becomes of handles that go away**
-/

namespace CallbackLocks

open Program

/-! ## what is told -/

/-- It is a line of the log, or a slot that is set. -/
def Event.isTold : Event → Bool
  | .log _ | .call (.setLocking _ _ _) | .call (.setId _ _ _) => true
  | _ => false

def World.told (w : World) : List Event := w.trace.filter Event.isTold

theorem World.told_see (w : World) (es : List Event) :
    (w.see es).told = w.told ++ es.filter Event.isTold := by
  rw [World.see_eq]
  exact List.filter_append ..

/-! ## one handle -/

variable {w v : World} {x y c : Holding} {l l' : List Holding} {e : Edition}

theorem Handle.isTold_parting (h : Handle) (w : World) :
    (h.parting w).filter Event.isTold = h.parting w := by
  rw [List.filter_eq_self]
  intro event he
  unfold parting World.removing at he
  split at he
  · split at he
    · rw [List.mem_singleton.mp he]
      rfl
    · simp only [removal, List.mem_cons, List.not_mem_nil, or_false] at he
      rcases he with rfl | rfl | rfl <;> rfl
  · obtain ⟨g, -, rfl⟩ := List.mem_map.mp he
    rfl

namespace Holding

/-- the handle or the session, as it is given up -/
def prize (c : Holding) : Prize := if c.session then .session ⟨c.handle⟩ else .handle c.handle

/-- the state after the handle or the session has gone away -/
def gone (e : Edition) (w : World) (c : Holding) : World :=
  if c.session then
    ({ c.handle.effect w with claimed := false } : World).see
      (Session.sweeping w e ++ c.handle.parting w ++ [.log .ended])
  else (c.handle.effect w).see (c.handle.parting w)

/-- what is told when it goes away -/
def farewell (w : World) (c : Holding) : List Event :=
  c.handle.parting w ++ if c.session then [.log .ended] else []

theorem run_drop_prize (hfree : w.lifecycle = none) (e : Edition) (c : Holding) (t : Thread) :
    (c.prize.drop e).run t w = (.ok (), c.gone e w) := by
  obtain ⟨d, h, session⟩ := c
  cases session with
  | false => exact Handle.run_drop hfree h t
  | true => exact Session.run_finish hfree e ⟨h⟩ t

theorem told_gone (e : Edition) (w : World) (c : Holding) :
    (c.gone e w).told = w.told ++ c.farewell w := by
  have heffect : (c.handle.effect w).told = w.told := by
    obtain ⟨table, slots, heq⟩ := c.handle.effect_eq w
    rw [heq]
    rfl
  have hsweep : (Session.sweeping w e).filter Event.isTold = [] := by cases e <;> rfl
  unfold gone farewell
  split
  · rw [World.told_see, List.filter_append, List.filter_append, hsweep, List.nil_append,
      Handle.isTold_parting]
    exact congrArg (· ++ _) heffect
  · rw [World.told_see, Handle.isTold_parting, List.append_nil, heffect]

/-- what it comes to for tables, registries and the claim -/
def effect (w : World) (c : Holding) : World :=
  if c.session then (c.handle.effect w).setClaimed false else c.handle.effect w

theorem stock_gone (e : Edition) (w : World) (c : Holding) :
    (c.gone e w).stock = (c.effect w).stock := by
  unfold gone effect
  split
  · exact World.stock_see _ _
  · exact World.stock_see _ _

theorem lifecycle_gone (e : Edition) (w : World) (c : Holding) :
    (c.gone e w).lifecycle = w.lifecycle := by
  obtain ⟨table, slots, heq⟩ := c.handle.effect_eq w
  unfold gone
  split
  · rw [World.see_eq, heq]
  · rw [World.see_eq, heq]

theorem run_dropAll (hfree : w.lifecycle = none) (e : Edition) (l : List Holding) (t : Thread) :
    (dropAll e (l.map prize)).run t w = (.ok (), l.foldl (gone e) w) := by
  induction l generalizing w with
  | nil => rfl
  | cons c l ih =>
    refine (run_bind t (c.prize.drop e) _ w).trans ?_
    rw [run_drop_prize hfree]
    exact ih ((lifecycle_gone e w c).trans hfree)

end Holding

/-! ## two handles -/

namespace Handle

variable {h h' : Handle}

theorem effect_of_current (hc : h.isCurrent w = true) : h.effect w = w.strip h.registry := if_pos hc

theorem effect_of_not_current (hc : h.isCurrent w = false) : h.effect w = w := by
  rw [effect, hc, if_neg Bool.false_ne_true]

/-- Once the table is gone no handle stands for it any more. -/
theorem isCurrent_strip (h : Handle) (w : World) (r : Registry) :
    h.isCurrent (w.strip r) = false := Bool.and_false _

theorem isCurrent_of_effect (hc : h.isCurrent (h'.effect w) = true) : h.isCurrent w = true := by
  unfold effect at hc
  split at hc
  · rw [isCurrent_strip] at hc
    exact nomatch hc
  · exact hc

theorem parting_effect (hone : ¬ (h.isCurrent w = true ∧ h'.isCurrent w = true)) :
    h.parting (h'.effect w) = h.parting w := by
  cases hc' : h'.isCurrent w with
  | false => rw [effect_of_not_current hc']
  | true =>
    have hc : h.isCurrent w = false := Bool.eq_false_iff.mpr fun hc => hone ⟨hc, hc'⟩
    rw [effect_of_current hc', parting, parting, isCurrent_strip, hc]
    rfl

theorem effect_comm (hone : ¬ (h.isCurrent w = true ∧ h'.isCurrent w = true)) :
    h.effect (h'.effect w) = h'.effect (h.effect w) := by
  have hback : ∀ {k k' : Handle}, k.isCurrent w = false → k.isCurrent (k'.effect w) = false :=
    fun hk => Bool.eq_false_iff.mpr fun hc => nomatch hk.symm.trans (isCurrent_of_effect hc)
  cases hc : h.isCurrent w with
  | false => rw [effect_of_not_current (hback hc), effect_of_not_current hc]
  | true =>
    have hc' : h'.isCurrent w = false := Bool.eq_false_iff.mpr fun hc' => hone ⟨hc, hc'⟩
    rw [effect_of_not_current hc', effect_of_not_current (hback hc')]

theorem effect_setClaimed (h : Handle) (w : World) (claimed : Bool) :
    h.effect (w.setClaimed claimed) = (h.effect w).setClaimed claimed := by
  show (if h.isCurrent w then _ else _) = _
  unfold effect
  split
  · rw [World.strip_eq, World.strip_eq]
    rfl
  · rfl

end Handle

namespace Holding

/-- At most one of the two owns the table. -/
def Apart (w : World) (x y : Holding) : Prop :=
  ¬ (x.handle.isCurrent w = true ∧ y.handle.isCurrent w = true)

theorem Apart.symm (h : Apart w x y) : Apart w y x := fun hc => h ⟨hc.2, hc.1⟩

theorem isCurrent_of_gone {h : Handle} (hc : h.isCurrent (c.gone e w) = true) :
    h.isCurrent w = true := by
  rw [World.eq_of_stock h.isCurrent (fun _ => rfl) (stock_gone e w c)] at hc
  unfold effect at hc
  split at hc
  · exact Handle.isCurrent_of_effect hc
  · exact Handle.isCurrent_of_effect hc

theorem Apart.gone (h : Apart w x y) (c : Holding) : Apart (c.gone e w) x y :=
  fun hc => h ⟨isCurrent_of_gone hc.1, isCurrent_of_gone hc.2⟩

theorem effect_of_stock (h : w.stock = v.stock) (c : Holding) :
    (c.effect w).stock = (c.effect v).stock := by
  unfold effect
  split
  · exact congrArg (World.setClaimed · false) (Handle.effect_of_stock h)
  · exact Handle.effect_of_stock h

theorem farewell_of_stock (h : w.stock = v.stock) (c : Holding) : c.farewell w = c.farewell v :=
  World.eq_of_stock (farewell · c) (fun _ => rfl) h

/-- What is told of a handle is the same after another one has gone. -/
theorem farewell_gone (h : Apart w x y) : y.farewell (x.gone e w) = y.farewell w := by
  rw [farewell_of_stock (stock_gone e w x)]
  unfold farewell effect
  have hparting := Handle.parting_effect fun hc => h ⟨hc.2, hc.1⟩
  split
  · exact congrArg (· ++ _) hparting
  · exact congrArg (· ++ _) hparting

theorem effect_comm (h : Apart w x y) : y.effect (x.effect w) = x.effect (y.effect w) := by
  have hcomm := Handle.effect_comm h
  unfold effect
  cases x.session <;> cases y.session <;>
    simp only [Handle.effect_setClaimed, hcomm, if_true, if_false, Bool.false_eq_true]

end Holding

/-! ## any number of handles -/

namespace World

/-- The two states differ at most in queues, the lifecycle lock, calls other than those that set
slots, and the order of the rest of what an observer has seen. -/
structure Agrees (w v : World) : Prop where
  stock : w.stock = v.stock
  told : w.told.Perm v.told

namespace Agrees

variable {u : World}

theorem refl (w : World) : w.Agrees w := ⟨rfl, List.Perm.refl _⟩

theorem trans (h : w.Agrees v) (h' : v.Agrees u) : w.Agrees u :=
  ⟨h.stock.trans h'.stock, h.told.trans h'.told⟩

theorem gone (h : w.Agrees v) (e : Edition) (c : Holding) :
    (c.gone e w).Agrees (c.gone e v) where
  stock := by
    rw [Holding.stock_gone, Holding.stock_gone]
    exact Holding.effect_of_stock h.stock c
  told := by
    rw [Holding.told_gone, Holding.told_gone, Holding.farewell_of_stock h.stock]
    exact h.told.append_right _

theorem foldl_gone (h : w.Agrees v) (e : Edition) (l : List Holding) :
    (l.foldl (Holding.gone e) w).Agrees (l.foldl (Holding.gone e) v) := by
  induction l generalizing w v with
  | nil => exact h
  | cons c l ih => exact ih (h.gone e c)

/-- Two handles, of which one at most owns the table, change places. -/
theorem swap (h : Holding.Apart w x y) (e : Edition) :
    (y.gone e (x.gone e w)).Agrees (x.gone e (y.gone e w)) where
  stock := by
    rw [Holding.stock_gone, Holding.effect_of_stock (Holding.stock_gone e w x),
      Holding.effect_comm h, Holding.stock_gone,
      ← Holding.effect_of_stock (Holding.stock_gone e w y)]
  told := by
    rw [Holding.told_gone, Holding.told_gone, Holding.told_gone, Holding.told_gone,
      Holding.farewell_gone h, Holding.farewell_gone h.symm, List.append_assoc, List.append_assoc]
    exact List.perm_append_comm.append_left _

/-- It makes no difference in which order handles go away. -/
theorem of_perm (hp : l.Perm l') (hone : l.Pairwise (Holding.Apart w)) (e : Edition) :
    (l.foldl (Holding.gone e) w).Agrees (l'.foldl (Holding.gone e) w) := by
  induction hp generalizing w with
  | nil => exact refl w
  | cons c _ ih => exact ih ((List.pairwise_cons.mp hone).2.imp fun h => h.gone c)
  | swap x y l =>
    exact (swap ((List.pairwise_cons.mp hone).1 x List.mem_cons_self) e).foldl_gone e l
  | trans hp _ ih ih' =>
    exact (ih hone).trans (ih' (hp.pairwise hone fun h => h.symm))

end Agrees

end World

/-! ## threads at work -/

namespace Workshop

variable {careful : Prop} {s : Workshop} {t : Thread}

theorem ask_eq_isCurrent (s : Workshop) (t : Thread) (c : Holding) :
    s.ask t c = .ok (c.handle.isCurrent s.world) := s.ask_eq_compare t c

/-- Of handles that are alive at most one owns the table. -/
theorem Sound.apart_of_ne (h : Sound careful s) (hfree : s.world.lifecycle = none)
    (hx : x ∈ s.live) (hy : y ∈ s.live) (hne : x ≠ y) : Holding.Apart s.world x y := by
  have howns : ∀ {c}, c ∈ s.live → c.handle.isCurrent s.world = true →
      s.ledger.origin = some c.deed := by
    intro c hc hcur
    have hask := h.ask_eq hc (.inr hfree) .main
    rw [ask_eq_isCurrent, hcur] at hask
    exact (of_decide_eq_true (Except.ok.inj hask).symm).2
  intro ⟨hcx, hcy⟩
  obtain ⟨i, hi⟩ := List.mem_iff_getElem?.mp hx
  obtain ⟨j, hj⟩ := List.mem_iff_getElem?.mp hy
  have hd : x.deed = y.deed := Option.some.inj ((howns hx hcx).symm.trans (howns hy hcy))
  obtain rfl := h.eq_of_deed hi hj hd
  exact hne (Option.some.inj (hi.symm.trans hj))

/-- **What becomes of handles that go away.**  Any threads have done anything, and none is at work
on tables.  A handle that does not own the table leaves all as it was when it is dropped, but for a
line of the log.  The drop of the one that owns it is a removal by the name of its registry.
Uninstalling is the same as dropping; the end of a session is so for table, count and registries.
Any handles and sessions leave the same behind in whatever order they go away, and tell the same. -/
theorem removals_are_orderless {edition : Edition} {reported : Nat → Nat} {hostLocks : Int32}
    {ms : List Move} (hr : run ms (initial edition reported hostLocks) = .ok s)
    (hfree : s.world.lifecycle = none) :
    (∀ c ∈ s.live, ∀ t,
      (s.ask t c = .ok false → c.handle.drop.run t s.world =
        (.ok (), s.world.see (c.handle.generation.toList.map fun g => .log (.tableGone g)))) ∧
      (s.ask t c = .ok true →
        c.handle.drop.run t s.world = (Lifecycle.teardown c.handle.registry).run t s.world ∧
        ∃ size, s.world.tableSize = some size ∧ c.handle.drop.run t s.world = (.ok (),
          (s.world.strip c.handle.registry).see (CallbackLocks.removal c.handle.registry size))) ∧
      c.handle.uninstall.run t s.world = c.handle.drop.run t s.world ∧
      ∀ e, let dropped := (c.handle.drop.run t s.world).2
        let finished := ((Session.mk c.handle).finish e).run t s.world
        finished.1 = .ok () ∧ finished.2.table = dropped.table ∧
          finished.2.generation = dropped.generation ∧ finished.2.slots = dropped.slots) ∧
    ∀ (l l' : List Holding), l.Nodup → (∀ c ∈ l, c ∈ s.live) → l.Perm l' → ∀ e t t',
      let w := (dropAll e (l.map Holding.prize)).run t s.world
      let w' := (dropAll e (l'.map Holding.prize)).run t' s.world
      w.1 = .ok () ∧ w'.1 = .ok () ∧ w.2.table = w'.2.table ∧ w.2.generation = w'.2.generation ∧
        w.2.slots = w'.2.slots ∧ w.2.told.Perm w'.2.told := by
  have h : Sound False s := (sound_initial False edition reported hostLocks).run False.elim hr
  refine ⟨fun c hc t => ⟨fun ha => ?_, fun ha => ?_, ?_, fun e => ?_⟩, ?_⟩
  · rw [ask_eq_isCurrent] at ha
    have hcur := Except.ok.inj ha
    rw [Handle.run_drop hfree, Handle.effect_of_not_current hcur, Handle.parting, hcur]
    rfl
  · rw [ask_eq_isCurrent] at ha
    have hcur := Except.ok.inj ha
    have hin : s.world.isInstalled = true := (Bool.and_eq_true _ _ ▸ hcur).2
    obtain ⟨size, hsize⟩ := Option.isSome_iff_exists.mp (s.world.isInstalled_eq ▸ hin)
    have hdrop : c.handle.drop.run t s.world = (.ok (),
        (s.world.strip c.handle.registry).see (CallbackLocks.removal c.handle.registry size)) := by
      rw [Handle.run_drop hfree, Handle.effect_of_current hcur, Handle.parting, hcur, if_pos rfl,
        World.removing, hsize]
    refine ⟨?_, size, hsize, hdrop⟩
    rw [hdrop, Lifecycle.run_teardown, hin, if_pos rfl, World.freed_eq hfree, World.removing, hsize]
  · rw [Handle.uninstall_eq_drop]
  · simp only [Handle.run_drop hfree, Session.run_finish hfree, World.see_eq, and_self]
  · intro l l' hnodup hlive hp e t t'
    have hone : l.Pairwise (Holding.Apart s.world) :=
      hnodup.imp_of_mem fun hx hy hne => h.apart_of_ne hfree (hlive _ hx) (hlive _ hy) hne
    have hagrees := World.Agrees.of_perm hp hone e
    simp only [Holding.run_dropAll hfree, true_and]
    refine ⟨?_, ?_, ?_, hagrees.told⟩
    · exact World.eq_of_stock World.table (fun _ => rfl) hagrees.stock
    · exact World.eq_of_stock World.generation (fun _ => rfl) hagrees.stock
    · exact World.eq_of_stock World.slots (fun _ => rfl) hagrees.stock

theorem removals_are_orderless_replacement : ∃ s,
    run replacement (initial .legacy (fun _ => 2) 3) = .ok s ∧ s.world.lifecycle = none ∧
    s.live.map (s.ask .main) = [.ok false, .ok true] ∧
    ((dropAll .legacy (s.live.map Holding.prize)).run .main s.world).2.table
      = ((dropAll .legacy (s.live.reverse.map Holding.prize)).run (.worker 0) s.world).2.table ∧
    ((dropAll .legacy (s.live.map Holding.prize)).run .main s.world).2.told.Perm
      ((dropAll .legacy (s.live.reverse.map Holding.prize)).run (.worker 0) s.world).2.told := by
  obtain ⟨s, hr, hfree, hask⟩ : ∃ s, run replacement (initial .legacy (fun _ => 2) 3) = .ok s ∧
      s.world.lifecycle = none ∧ s.live.map (s.ask .main) = [.ok false, .ok true] :=
    ⟨_, rfl, by cbv, by cbv⟩
  have hnodup := ((sound_initial False .legacy (fun _ => 2) 3).run False.elim hr).once.of_map _
  have h := (removals_are_orderless hr hfree).2 _ _ hnodup (fun _ hc => hc)
    (List.reverse_perm _).symm .legacy .main (.worker 0)
  exact ⟨s, hr, hfree, hask, h.2.2.1, h.2.2.2.2.2⟩

end Workshop

end CallbackLocks
