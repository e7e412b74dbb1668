import Mathlib
import CallbackLocks.Proofs.Runs.Invariant

/-!
# The locking contract

* `Workshop.registered_only_at_home`   **our dispatcher is registered where its table was made for**
* `World.isAtRest`   no lock is held, and nobody waits for one
* `World.hasLock`    the number is not negative, and below the size of the table if there is one
* `Workshop.keepsContract`   the moves of a run in which everybody keeps to the contract
* `Accounted`        what has been taken and not given back is held, each lock by one thread
* `Workshop.run_keeps_going`   **no call ends the process in a run that keeps to the contract**
-/

namespace CallbackLocks

open Ledger

/-! ## where our dispatcher is registered -/

namespace Workshop

variable {s s' : Workshop} {t : Thread} {r : Registry}

theorem Sound.isInstalled_of_own (h : Sound True s) (hr : s.world.locking r = some .own) :
    s.world.isInstalled = true ∧ ∃ m, s.ledger.origin = some m ∧ m.operation.registry = r := by
  obtain ⟨m, hm, hmr⟩ := h.ledger.registered trivial r hr
  have hin : s.world.isInstalled = s.ledger.origin.isSome := h.ledger.table
  exact ⟨by rw [hin, hm]; rfl, m, hm, hmr⟩

/-- **Our dispatcher is registered only where its table was made for.**  At every moment of a
careful run, between any two accesses, a registry that holds our dispatcher is the one that the
table was made for, which is installed, and no other registry holds it. -/
theorem registered_only_at_home {edition : Edition} {reported : Nat → Nat} {hostLocks : Int32}
    {ms : List Move} (hk : keeps isCareful ms (initial edition reported hostLocks) = true)
    (hr : run ms (initial edition reported hostLocks) = .ok s)
    (hown : s.world.locking r = some .own) :
    s.world.isInstalled = true ∧
      (∃ m, s.ledger.origin = some m ∧ m.operation.registry = r) ∧
      ∀ r', s.world.locking r' = some .own → r' = r := by
  have h : Sound True s := (sound_initial True edition reported hostLocks).run (fun _ => hk) hr
  obtain ⟨hin, m, hm, hmr⟩ := h.isInstalled_of_own hown
  refine ⟨hin, ⟨m, hm, hmr⟩, fun r' hown' => ?_⟩
  obtain ⟨-, m', hm', hmr'⟩ := h.isInstalled_of_own hown'
  rw [← hmr', ← Option.some.inj (hm.symm.trans hm'), hmr]

/-- A table is being removed, and another registry has a callback of its own. -/
def removal : List Move := List.flatten
  [Move.inARow .main (.newHandle (.recorder 0)) 12,
    Move.inARow (.worker 0) (.teardown (.recorder 0)) 3,
    [.outside (.register (.recorder 1) (some (.foreign 7)))]]

theorem registered_only_at_home_removal :
    keeps isCareful removal (initial .legacy (fun _ => 2) 3) = true ∧
    ∃ s, run removal (initial .legacy (fun _ => 2) 3) = .ok s ∧
      s.world.locking (.recorder 0) = some .own ∧ s.world.isInstalled = true ∧
      ∀ r, s.world.locking r = some .own → r = .recorder 0 := by
  have hk : keeps isCareful removal (initial .legacy (fun _ => 2) 3) = true := by cbv
  have hr := (rfl : run removal (initial .legacy (fun _ => 2) 3) = .ok _)
  obtain ⟨hin, -, honly⟩ := registered_only_at_home hk hr (r := .recorder 0) (by cbv)
  exact ⟨hk, _, hr, by cbv, hin, honly⟩

end Workshop

/-! ## the contract -/

/-- no lock of the table is held, and no thread waits for one -/
def World.isAtRest (w : World) : Bool :=
  !w.hasWaiting && w.table.all fun t => t.locks.all fun l => !l.isHeld

/-- The number is not negative, and if there is a table, it has such a lock. -/
def World.hasLock (w : World) (index : Int32) : Bool :=
  decide (0 ≤ index) && w.tableSize.all fun size => index.toNatClampNeg < size

namespace Workshop

/-- Tables come and go while no lock is held; a call of our dispatcher names a lock of the table,
and gives back only what its thread has taken. -/
def keepsContract (s : Workshop) (m : Move) : Bool :=
  s.isCareful m && match m with
    | .start _ _ | .go _ => s.world.isAtRest
    | .outside _ => true
    | .call t r mode index _ _ => s.world.locking r != some .own ||
        s.world.hasLock index && (Mode.takes mode || s.taken.contains (t, index.toNatClampNeg))

end Workshop

/-! ## what has been taken -/

/-- What has been taken and not given back is held, each lock by one thread. -/
structure Accounted (table : Option LockTable) (taken : List (Thread × Nat)) : Prop where
  held : ∀ p ∈ taken, ∃ t ws, table = some t ∧ t.locks[p.2]? = some (.held ws)
  once : (taken.map Prod.snd).Nodup

section
variable {t : LockTable} {taken : List (Thread × Nat)} {who w : Thread} {n : Nat} {l l' : Lock}
  {ws ws' : List Thread}

theorem accounted_nil (table : Option LockTable) : Accounted table [] :=
  ⟨fun _ hp => absurd hp List.not_mem_nil, List.nodup_nil⟩

theorem Accounted.isHeld (h : Accounted (some t) taken) {p : Thread × Nat} (hp : p ∈ taken) :
    ∃ ws, t.locks[p.2]? = some (.held ws) := by
  obtain ⟨t', ws, ht, hl⟩ := h.held p hp
  rw [Option.some.inj ht]
  exact ⟨ws, hl⟩

theorem Accounted.setLock (h : Accounted (some t) taken) (hn : ∀ p ∈ taken, p.2 ≠ n) :
    Accounted (some (t.setLock n l)) taken where
  held := by
    intro p hp
    obtain ⟨ws, hl⟩ := h.isHeld hp
    refine ⟨_, ws, rfl, ?_⟩
    rw [LockTable.getElem?_setLock, if_neg (hn p hp).symm]
    exact hl
  once := h.once

theorem Accounted.setHeld (h : Accounted (some t) taken) (hlt : n < t.size) :
    Accounted (some (t.setLock n (.held ws'))) taken where
  held := by
    intro p hp
    by_cases hpn : n = p.2
    · refine ⟨_, ws', rfl, ?_⟩
      rw [LockTable.getElem?_setLock, if_pos hpn, if_pos hlt]
    · obtain ⟨ws, hl⟩ := h.isHeld hp
      refine ⟨_, ws, rfl, ?_⟩
      rw [LockTable.getElem?_setLock, if_neg hpn]
      exact hl
  once := h.once

/-- One more thread has taken a lock that is held and that nobody else has taken. -/
theorem Accounted.cons (h : Accounted (some t) taken) (hl : t.locks[n]? = some (.held ws))
    (hn : ∀ p ∈ taken, p.2 ≠ n) : Accounted (some t) ((who, n) :: taken) where
  held := by
    intro p hp
    rcases List.mem_cons.mp hp with rfl | hp
    · exact ⟨t, ws, rfl, hl⟩
    · exact h.held p hp
  once := by
    rw [List.map_cons, List.nodup_cons]
    refine ⟨fun hmem => ?_, h.once⟩
    obtain ⟨p, hp, hpn⟩ := List.mem_map.mp hmem
    exact hn p hp hpn

/-- What is left once a thread has given a lock back is of other locks. -/
theorem Accounted.erase (h : Accounted (some t) taken) (hp : (who, n) ∈ taken) :
    Accounted (some t) (taken.erase (who, n)) ∧ ∀ p ∈ taken.erase (who, n), p.2 ≠ n := by
  have hperm := (List.perm_cons_erase hp).map Prod.snd
  have hnodup := hperm.nodup_iff.mp h.once
  rw [List.map_cons, List.nodup_cons] at hnodup
  refine ⟨⟨fun p hp' => h.held p (List.mem_of_mem_erase hp'), hnodup.2⟩, fun p hp' hpn => ?_⟩
  exact hnodup.1 (List.mem_map.mpr ⟨p, hp', hpn⟩)

/-- A call that names a lock of the table, and gives back only what its thread has taken, ends
without a fault and leaves what has been taken accounted for. -/
theorem Accounted.dispatchTo (h : Accounted (some t) taken) {mode index : Int32}
    (hneg : 0 ≤ index) (hlt : index.toNatClampNeg < t.size)
    (hgive : Mode.takes mode = true ∨ (who, index.toNatClampNeg) ∈ taken) (place : Nat) :
    ∃ o t', dispatchTo place (some t) who mode index = .ok (o, t') ∧
      Accounted (some t') (Workshop.takenAfter taken who mode index.toNatClampNeg o) := by
  have hself := fun l => LockTable.getElem?_setLock_self hlt l
  cases hm : Mode.takes mode with
  | true =>
    obtain ⟨l, hl⟩ : ∃ l, t.locks[index.toNatClampNeg]? = some l :=
      ⟨_, Array.getElem?_eq_getElem hlt⟩
    have hcall := dispatchTo_of_takes place who hneg hm hl
    cases l with
    | free =>
      have hn : ∀ p ∈ taken, p.2 ≠ index.toNatClampNeg := by
        intro p hp hpn
        obtain ⟨ws, hws⟩ := h.isHeld hp
        rw [hpn, hl] at hws
        exact nomatch hws
      refine ⟨_, _, hcall, ?_⟩
      simp only [Workshop.takenAfter, hm, Lock.isHeld_free, Bool.false_eq_true, if_false, if_true]
      exact (h.setLock hn).cons (hself _) hn
    | held ws => exact ⟨_, _, hcall, h.setHeld hlt⟩
  | false =>
    have hp : (who, index.toNatClampNeg) ∈ taken :=
      hgive.resolve_left (by rw [hm]; exact Bool.false_ne_true)
    obtain ⟨ws, hl⟩ := h.isHeld hp
    obtain ⟨hrest, hne⟩ := h.erase hp
    have hcall := dispatchTo_of_gives place who hneg hm hl rfl
    refine ⟨_, _, hcall, ?_⟩
    rcases Lock.give_cases place ws with ⟨-, hgiven⟩ | ⟨k, w, -, hgiven⟩
    · rw [hgiven]
      simp only [Workshop.takenAfter, hm, Bool.false_eq_true, if_false]
      exact hrest.setLock hne
    · rw [hgiven]
      simp only [Workshop.takenAfter, hm, Bool.false_eq_true, if_false]
      exact (hrest.setLock hne).cons (hself _) hne

end

theorem Accounted.eq_nil {w : World} {taken : List (Thread × Nat)}
    (h : Accounted w.table taken) (hw : w.isAtRest = true) : taken = [] := by
  refine List.eq_nil_iff_forall_not_mem.mpr fun p hp => ?_
  obtain ⟨t, ws, ht, hl⟩ := h.held p hp
  unfold World.isAtRest at hw
  rw [ht, Option.all_some, Bool.and_eq_true, Array.all_eq_true] at hw
  obtain ⟨hlt, hget⟩ := Array.getElem?_eq_some_iff.mp hl
  have hfree := hw.2 p.2 hlt
  rw [hget] at hfree
  exact nomatch hfree

namespace Workshop

/-! ## runs that keep to the contract -/

variable {s : Workshop} {t : Thread}

theorem taken_start (s : Workshop) (t : Thread) (o : Order) : (s.start t o).taken = s.taken := by
  unfold start
  split
  · rfl
  · rfl

theorem taken_go (s : Workshop) (t : Thread) : (s.go t).taken = s.taken := by
  rcases s.go_cases t with ⟨heq, -⟩ | ⟨d, p, -, heq⟩ | ⟨d, why, -, heq⟩ | ⟨d, a, next, -, -, heq⟩
  · rw [heq]
  · rw [heq]
    rfl
  · rw [heq]
    rfl
  · rw [heq]
    rfl

theorem call_keeps (hs : Sound True s) (ha : Accounted s.world.table s.taken) {r : Registry}
    {mode index line : Int32} {place : Nat}
    (hk : s.keepsContract (.call t r mode index line place) = true) :
    ∃ s', s.call t r mode index line place = .ok s' ∧ Accounted s'.world.table s'.taken := by
  unfold call
  cases hf : s.world.locking r with
  | none => exact ⟨s, rfl, ha⟩
  | some f =>
    cases f with
    | foreign k => exact ⟨_, rfl, ha⟩
    | own =>
      obtain ⟨hin, -⟩ := hs.isInstalled_of_own hf
      obtain ⟨table, htable⟩ := Option.isSome_iff_exists.mp hin
      simp only [keepsContract, hf, bne_self_eq_false, Bool.false_or, Bool.and_eq_true,
        Bool.or_eq_true, World.hasLock, World.tableSize, htable, Option.map_some, Option.all_some,
        decide_eq_true_eq, List.contains_iff_mem] at hk
      obtain ⟨-, ⟨hneg, hlt⟩, hgive⟩ := hk
      rw [htable] at ha
      obtain ⟨o, table', hcall, hnext⟩ := ha.dispatchTo hneg hlt hgive place
      simp only [htable, hcall]
      exact ⟨_, rfl, hnext⟩

/-- A move that keeps to the contract ends without a fault. -/
theorem step_keeps (hs : Sound True s) (ha : Accounted s.world.table s.taken) {m : Move}
    (hk : s.keepsContract m = true) :
    ∃ s', s.step m = .ok s' ∧ Accounted s'.world.table s'.taken := by
  have hrest : s.world.isAtRest = true → ∀ s' : Workshop, s'.taken = s.taken →
      Accounted s'.world.table s'.taken := by
    intro hw s' htaken
    rw [htaken, ha.eq_nil hw]
    exact accounted_nil _
  have hall := hk
  unfold keepsContract at hk
  rw [Bool.and_eq_true] at hk
  cases m with
  | start t o =>
    refine ⟨_, rfl, ?_⟩
    split
    · exact hrest hk.2 _ (taken_start s t o)
    · exact ha
  | go t => exact ⟨_, rfl, hrest hk.2 _ (taken_go s t)⟩
  | outside o =>
    refine ⟨_, rfl, ?_⟩
    show Accounted (o.apply s.world).table s.taken
    rw [(outside_eq o s.world).2.2]
    exact ha
  | call t r mode index line place =>
    show ∃ s', (if s.isFree t then s.call t r mode index line place else .ok s) = .ok s' ∧ _
    split
    · exact call_keeps hs ha hall
    · exact ⟨s, rfl, ha⟩

theorem run_keeps {ms : List Move} (hs : Sound True s) (ha : Accounted s.world.table s.taken)
    (hk : keeps keepsContract ms s = true) : ∃ s', run ms s = .ok s' := by
  induction ms generalizing s with
  | nil => exact ⟨s, rfl⟩
  | cons m ms ih =>
    obtain ⟨hm, hms⟩ := keeps_cons hk
    obtain ⟨s', hs', ha'⟩ := step_keeps hs ha hm
    have hcareful : s.isCareful m = true := by
      unfold keepsContract at hm
      rw [Bool.and_eq_true] at hm
      exact hm.1
    rw [run_cons hs']
    exact ih (hs.step (fun _ => hcareful) hs') ha' (hms s' hs')

/-- **No call ends the process in a run that keeps to the contract.**  A call of the dispatcher is
one move of the run (`Workshop.call`): nothing comes between its look at the slot and the lock. -/
theorem run_keeps_going {edition : Edition} {reported : Nat → Nat} {hostLocks : Int32}
    {ms : List Move}
    (hk : keeps keepsContract ms (initial edition reported hostLocks) = true) :
    ∃ s, run ms (initial edition reported hostLocks) = .ok s :=
  run_keeps (sound_initial True edition reported hostLocks) (accounted_nil none) hk

/-- A lock is taken, waited for and handed over; then the table makes way for a larger one. -/
def orderly : List Move := List.flatten
  [Move.inARow .main (.newHandle (.recorder 0)) 12,
    [.call .main (.recorder 0) 1 1 0 0, .call (.worker 0) (.recorder 0) 5 1 0 0,
      .call .main (.recorder 0) 2 1 0 0, .call (.worker 0) (.recorder 0) 6 1 0 0],
    Move.inARow .main (.drop 0) 10, Move.inARow .main (.newHandle (.recorder 1)) 12,
    [.call .main (.recorder 1) 1 2 0 0, .call .main (.recorder 1) 2 2 0 0]]

theorem run_keeps_going_orderly :
    keeps keepsContract orderly (initial .modern (fun i => i + 2) 0) = true ∧
    ∃ s, run orderly (initial .modern (fun i => i + 2) 0) = .ok s :=
  ⟨by cbv, run_keeps_going (by cbv)⟩

end Workshop

end CallbackLocks
