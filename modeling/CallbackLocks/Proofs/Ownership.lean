import Mathlib
import CallbackLocks.Proofs.Runs.Invariant

/-!
# Which handle owns the table

A handle does not know its table.  It has a number, and compares it with how many tables there have
been; a table that is removed is still counted, and a call that is refused counts nothing.

* `Workshop.ask`     what a handle tells when it is asked and nobody comes between
* `Workshop.Answers`   the handle does not have to wait for the lifecycle lock
* `Workshop.Sound.ask_eq`   it tells whether the table is the one that its own call made
* `Workshop.Over`    a call that is over, which adds nothing to the record any more
* `Workshop.Gone`    one whose table is not the one that is installed
* `Workshop.owns_exactly`   **a handle owns the table exactly as long as it should**
-/

namespace CallbackLocks

open Ledger

namespace Workshop

/-- What a handle tells when `t` asks it and nobody comes between. -/
def ask (s : Workshop) (t : Thread) (c : Holding) : Except Abandoned Bool :=
  (c.handle.owns.run t s.world).1

/-- A handle with a number to compare waits for the lifecycle lock. -/
def Answers (s : Workshop) (c : Holding) : Prop :=
  c.handle.generation = none ∨ s.world.lifecycle = none

variable {careful : Prop} {s s' : Workshop} {t : Thread} {c c' : Holding} {d : Deed}

/-! ## numbers and tables -/

theorem ask_eq_compare (s : Workshop) (t : Thread) (c : Holding) :
    s.ask t c = .ok (c.handle.generation == some s.world.generation && s.world.isInstalled) :=
  c.handle.run_owns t s.world

/-- Under the lifecycle lock, the number of the newest table is how many there have been. -/
theorem Sound.newest_place (h : Sound careful s) {m : Deed} (hm : s.ledger.origin = some m)
    (hl : s.world.lifecycle = none) : ∃ j, s.world.generation = j + 1 ∧
      s.ledger.makers[j]? = some m := by
  have hlast := h.ledger.newest m hm
  have hlen : s.ledger.makers.length = s.world.generation := h.ledger.settled hl
  rw [List.getLast?_eq_getElem?, hlen] at hlast
  have hpos : s.world.generation ≠ 0 := by
    intro h0
    rw [List.eq_nil_of_length_eq_zero (hlen.trans h0)] at hlast
    exact nomatch hlast
  exact ⟨s.world.generation - 1, by omega, hlast⟩

/-- **A handle tells whether the table that is installed is the one that its own call made.** -/
theorem Sound.ask_eq (h : Sound careful s) (hc : c ∈ s.live) (ha : s.Answers c) (t : Thread) :
    s.ask t c = .ok (decide (s.world.isInstalled = true ∧ s.ledger.origin = some c.deed)) := by
  have hst := h.live c hc
  have htable : s.world.isInstalled = s.ledger.origin.isSome := h.ledger.table
  rw [ask_eq_compare]
  congr 1
  rw [Bool.eq_iff_iff, decide_eq_true_iff, Bool.and_eq_true, beq_iff_eq]
  constructor
  · intro ⟨hg, hin⟩
    refine ⟨hin, ?_⟩
    obtain ⟨m, hm⟩ := Option.isSome_iff_exists.mp (htable.symm.trans hin)
    have hl : s.world.lifecycle = none := ha.resolve_left fun hnone => nomatch hnone.symm.trans hg
    obtain ⟨j, hj, hmj⟩ := h.newest_place hm hl
    obtain ⟨j', hj', hcj⟩ := hst.records.made _ hg
    have hjj : j' = j := by omega
    rw [hjj, hmj] at hcj
    rw [hm, hcj]
  · intro ⟨hin, ho⟩
    refine ⟨?_, hin⟩
    -- a handle whose call made a table has a number, so it has waited for the lifecycle lock
    have hmem := List.mem_of_getLast? (h.ledger.newest _ ho)
    obtain ⟨j, hj⟩ := List.mem_iff_getElem?.mp hmem
    have hl : s.world.lifecycle = none :=
      ha.resolve_left fun hnone => nomatch hnone.symm.trans (hst.records.sole j _ hj rfl)
    obtain ⟨i, hi, hmi⟩ := h.newest_place ho hl
    rw [hi]
    exact hst.records.sole i _ hmi rfl

/-! ## a table that is gone -/

/-- The call is over. -/
structure Over (d : Deed) (s : Workshop) : Prop where
  past : d.call < s.calls
  ended : ∀ t e, s.errand t = some e → d.call ≠ e.deed.call

theorem Over.setErrand (h : Over d s) {e : Option Errand}
    (he : ∀ e', e = some e' → d.call ≠ e'.deed.call) : Over d (s.setErrand t e) where
  past := h.past
  ended := by
    intro t' e' he'
    rcases errand_cases he' with ⟨-, heq⟩ | ⟨-, he'⟩
    · exact he e' heq
    · exact h.ended t' e' he'

/-- No call is made twice. -/
theorem Over.step (h : Over d s) {m : Move} (hs : s.step m = .ok s') : Over d s' := by
  refine step_preserves hs h ?start ?finish ?quit ?perform (fun _ => { h with })
    (fun _ _ _ _ => { h with }) (fun _ _ _ _ _ _ _ => { h with })
  case start =>
    intro t o op _ _
    have hcount : Over d { s with calls := s.calls + 1, live := s.liveAfter o } :=
      { h with past := Nat.lt_succ_of_lt h.past }
    refine hcount.setErrand fun e he => ?_
    rw [← Option.some.inj he]
    exact Nat.ne_of_lt h.past
  case finish =>
    intro t d' p _
    have hkept : Over d { s with live := s.live ++ p.holdings d' } := { h with }
    exact hkept.setErrand (fun _ he => nomatch he)
  case quit => exact fun _ _ _ _ => h.setErrand (fun _ he => nomatch he)
  case perform =>
    intro t d' a next he _
    have hkept : Over d { s with ledger := (s.ledger.perform d' t a).2 } := { h with }
    refine hkept.setErrand fun e he' => ?_
    have hne : d.call ≠ d'.call := h.ended t _ he
    rw [← Option.some.inj he']
    exact hne

theorem Over.run (h : Over d s) {ms : List Move} (hr : run ms s = .ok s') : Over d s' :=
  run_induction (P := fun _ s => Over d s) (fun _ _ _ _ h hs => h.step hs) h hr

/-- What a move adds to the record, it adds for a call that a thread is in the middle of. -/
theorem record_step {m : Move} (hs : s.step m = .ok s') :
    s'.ledger.makers = s.ledger.makers ∧ s'.ledger.origin = s.ledger.origin ∨
      ∃ t e a, s.errand t = some e ∧ s'.ledger = (s.ledger.perform e.deed t a).2 := by
  refine step_preserves (P := fun s' => s'.ledger.makers = s.ledger.makers ∧
      s'.ledger.origin = s.ledger.origin ∨ ∃ t e a, s.errand t = some e ∧
        s'.ledger = (s.ledger.perform e.deed t a).2) hs (.inl ⟨rfl, rfl⟩)
    (fun _ _ _ _ _ => .inl ⟨rfl, rfl⟩) (fun _ _ _ _ => .inl ⟨rfl, rfl⟩)
    (fun _ _ _ _ => .inl ⟨rfl, rfl⟩) ?perform (fun _ => .inl ⟨rfl, rfl⟩)
    (fun _ _ _ _ => .inl ⟨rfl, rfl⟩) (fun _ _ _ _ _ _ _ => .inl ⟨rfl, rfl⟩)
  case perform => exact fun t d a next he _ => .inr ⟨t, _, a, he, rfl⟩

/-- The call is over, and the table that is installed is not one that it made. -/
structure Gone (d : Deed) (s : Workshop) : Prop where
  past : d.call < s.calls
  ended : ∀ t e, s.errand t = some e → d.call ≠ e.deed.call
  origin : s.ledger.origin ≠ some d

/-- A table that is gone does not come back. -/
theorem Gone.step (h : Gone d s) {m : Move} (hs : s.step m = .ok s') : Gone d s' := by
  have hover : Over d s' := Over.step ⟨h.past, h.ended⟩ hs
  refine ⟨hover.past, hover.ended, fun ho => ?_⟩
  rcases record_step hs with ⟨-, hsame⟩ | ⟨t, e, a, he, hl⟩
  · exact h.origin (hsame.symm.trans ho)
  · rw [hl] at ho
    rcases origin_perform e.deed t a s.ledger with h' | h' | h'
    · exact h.origin (h'.symm.trans ho)
    · exact nomatch h'.symm.trans ho
    · exact h.ended t e he (congrArg Deed.call (Option.some.inj (ho.symm.trans h')))

theorem Gone.run (h : Gone d s) {ms : List Move} (hr : run ms s = .ok s') : Gone d s' :=
  run_induction (P := fun _ s => Gone d s) (fun _ _ _ _ h hs => h.step hs) h hr

/-! ## ownership -/

theorem Sound.eq_of_deed (h : Sound careful s) {i j : Nat} (hi : s.live[i]? = some c)
    (hj : s.live[j]? = some c') (hd : c.deed = c'.deed) : i = j := by
  have hlen : i < (s.live.map fun c => c.deed.call).length := by
    rw [List.length_map]
    exact (List.getElem?_eq_some_iff.mp hi).1
  refine (List.getElem?_inj hlen h.once).mp ?_
  rw [List.getElem?_map, List.getElem?_map, hi, hj]
  show some c.deed.call = some c'.deed.call
  rw [hd]

/-- **A handle owns the table exactly as long as it should.**  After any run, a handle that is alive
and does not have to wait tells that it owns the table if a table is installed and it is the one
made by the call that returned the handle.  So no two handles own it, none does if the table was
installed without a handle, and one that does not own it never will again.  Handles are told apart by
numbers, which do not come again below `2 ^ 64` installations. -/
theorem owns_exactly {edition : Edition} {reported : Nat → Nat} {hostLocks : Int32}
    {ms : List Move} (hr : run ms (initial edition reported hostLocks) = .ok s) (t : Thread) :
    (∀ c ∈ s.live, s.Answers c →
      s.ask t c = .ok (decide (s.world.isInstalled = true ∧ s.ledger.origin = some c.deed))) ∧
    (∀ (i j : Nat) c c', s.live[i]? = some c → s.live[j]? = some c' → s.Answers c →
      s.Answers c' → s.ask t c = .ok true → s.ask t c' = .ok true → i = j) ∧
    (∀ m r, s.ledger.origin = some m → m.operation = .install r →
      ∀ c ∈ s.live, s.Answers c → s.ask t c = .ok false) ∧
    ∀ c ∈ s.live, s.Answers c → s.ask t c = .ok false →
      ∀ ms' s', run ms' s = .ok s' → c ∈ s'.live → s'.Answers c → s'.ask t c = .ok false := by
  have h : Sound False s :=
    (sound_initial False edition reported hostLocks).run False.elim hr
  have howns : ∀ c ∈ s.live, s.Answers c → s.ask t c = .ok true →
      s.ledger.origin = some c.deed := by
    intro c hc ha ho
    rw [h.ask_eq hc ha] at ho
    exact (of_decide_eq_true (Except.ok.inj ho)).2
  refine ⟨fun c hc ha => h.ask_eq hc ha t, ?_, ?_, ?_⟩
  · intro i j c c' hi hj ha ha' ho ho'
    have hc := howns c (List.mem_of_getElem? hi) ha ho
    have hc' := howns c' (List.mem_of_getElem? hj) ha' ho'
    exact h.eq_of_deed hi hj (Option.some.inj (hc.symm.trans hc'))
  · intro m r hm hop c hc ha
    rw [h.ask_eq hc ha, decide_eq_false]
    intro ⟨_, ho⟩
    have hret := (h.live c hc).returned
    rw [← Option.some.inj (hm.symm.trans ho), hop] at hret
    exact nomatch hret
  · intro c hc ha ho ms' s' hr' hc' ha'
    have hst := h.live c hc
    have hin : s.world.isInstalled = s.ledger.origin.isSome := h.ledger.table
    have hne : s.ledger.origin ≠ some c.deed := by
      intro heq
      rw [h.ask_eq hc ha, decide_eq_true ⟨by rw [hin, heq]; rfl, heq⟩] at ho
      exact nomatch ho
    have hgone : Gone c.deed s' := Gone.run ⟨hst.past, hst.ended, hne⟩ hr'
    have h' : Sound False s' := h.run False.elim hr'
    rw [h'.ask_eq hc' ha', decide_eq_false]
    exact fun hboth => hgone.origin hboth.2

/-- A handle gets a table, the table is removed by name, and another handle gets the next. -/
def replacement : List Move := List.flatten
  [Move.inARow .main (.newHandle (.recorder 0)) 12, Move.inARow .main (.teardown (.recorder 0)) 8,
    Move.inARow .main (.newHandle (.recorder 1)) 12]

theorem owns_exactly_replaced : ∃ s, run replacement (initial .legacy (fun _ => 2) 3) = .ok s ∧
    s.live.map (s.ask .main) = [.ok false, .ok true] ∧
    ∀ c, s.live[0]? = some c → ∀ ms' s', run ms' s = .ok s' → c ∈ s'.live → s'.Answers c →
      s'.ask .main c = .ok false := by
  have h := owns_exactly (rfl : run replacement (initial .legacy (fun _ => 2) 3) = .ok _) .main
  refine ⟨_, rfl, by cbv, fun c hc => ?_⟩
  have hmem := List.mem_of_getElem? hc
  refine h.2.2.2 c hmem (.inr (by cbv)) ?_
  cbv at hc
  rw [← Option.some.inj hc]
  cbv
end Workshop

end CallbackLocks
