import Mathlib
import CallbackLocks.Proofs.Concert.Beats

/-!
# Registrations and removals alternate

Threads make calls of all kinds, access by access, and other parties do as they like.

* `Concert.InStep`   the call that has the lifecycle lock is at some beat, which is what the state
                     of the process and the marks tell; no other call is at any
* `Concert.InStep.step`   **every move preserves it**
* `Concert.registrations_and_removals_alternate`   **what shows of tables are turns**
-/

namespace CallbackLocks

open Function (update)
open Program (ofResult)

/-! ## what turns say -/

/-- A slot is set only while there is a table. -/
theorem Alternates.installed {size : Option Nat} {events : List Event}
    (h : Alternates size events) :
    (∀ r f, .call (.setId r f false) ∉ events) ∧ ∀ r f, .call (.setLocking r f false) ∉ events := by
  induction h with
  | nil => exact ⟨fun _ _ => List.not_mem_nil, fun _ _ => List.not_mem_nil⟩
  | register _ r n ih | remove _ r ih =>
    refine ⟨fun r' f hm => ?_, fun r' f hm => ?_⟩
    · rcases List.mem_append.mp hm with hm | hm
      · exact ih.1 r' f hm
      · simp [registration, removal] at hm
    · rcases List.mem_append.mp hm with hm | hm
      · exact ih.2 r' f hm
      · simp [registration, removal] at hm

/-- There is a table if and only if the last turn is a registration. -/
theorem Alternates.isSome_iff {size : Option Nat} {events : List Event}
    (h : Alternates size events) :
    size.isSome = true ↔ ∃ turns r n, events = turns ++ registration r n := by
  cases h with
  | nil => simp [registration]
  | register h r n => exact ⟨fun _ => ⟨_, r, n, rfl⟩, fun _ => rfl⟩
  | remove h r =>
    refine ⟨(fun hnone => nomatch hnone), fun ⟨_, _, _, heq⟩ => ?_⟩
    have hlast := (List.append_inj' heq rfl).2
    simp [registration, removal] at hlast

/-- What has been heard at a beat is the beginning of some turns. -/
theorem Beat.Heard.exists_turns {b : Beat} {marks : List Event} (h : b.Heard marks) :
    ∃ size rest, Alternates size (marks ++ rest) := by
  obtain ⟨turns, hturns, rfl⟩ := h
  cases b with
  | away | quiet size => exact ⟨_, [], by simpa [Beat.sofar] using hturns⟩
  | published n => exact ⟨_, [], by simpa [Beat.sofar] using hturns⟩
  | idSet r n =>
    refine ⟨some n, [.call (.setLocking r (some .own) true), .log (.tableInstalled n)], ?_⟩
    simpa [Beat.sofar, registration] using hturns.register r n
  | registered r n =>
    refine ⟨some n, [.log (.tableInstalled n)], ?_⟩
    simpa [Beat.sofar, registration] using hturns.register r n
  | idCleared r n =>
    refine ⟨none, [.call (.setLocking r none true), .log (.tableRemoved n)], ?_⟩
    simpa [Beat.sofar, removal] using hturns.remove r
  | cleared r n | withdrawn r n =>
    refine ⟨none, [.log (.tableRemoved n)], ?_⟩
    simpa [Beat.sofar, removal] using hturns.remove r

namespace Concert

variable {e : Edition} {s : Concert (sessions e)} {t : Thread} {c : Task (sessions e)}
  {acts : List Act}

/-! ## one call at a beat -/

/-- what is left of a call keeps to the order from that beat on -/
def KeepsTo (b : Beat) (p : Program SessionResult) : Prop := p.Along .beat (fun b _ => b = .away) b

/-- The call that has the lifecycle lock is at a beat, and no other call is at any. -/
structure InStep (s : Concert (sessions e)) : Prop where
  away : ∀ t u, s.current t = some u → s.world.lifecycle ≠ some t → KeepsTo .away u.rest
  holder : ∀ t, s.world.lifecycle = some t → ∃ u b, s.current t = some u ∧ KeepsTo b u.rest ∧
    b ≠ .away ∧ b.Fits s.world.tableSize ∧ b.Heard s.world.marks
  free : s.world.lifecycle = none → Alternates s.world.tableSize s.world.marks

theorem eq_away_of_keepsTo {b : Beat} {x : Except Abandoned SessionResult}
    (h : KeepsTo b (ofResult x)) : b = .away := by
  cases x with
  | ok x => exact h
  | error a => exact h

theorem InStep.start (h : InStep s) (q : SessionRequest) (ht : s.current t = none) :
    InStep (s.start t q) where
  away := by
    intro t' u hu hl
    rcases current_cases hu with ⟨-, heq⟩ | ⟨-, hu⟩
    · rw [← Option.some.inj heq]
      exact SessionRequest.in_step e q
    · exact h.away t' u hu hl
  holder := by
    intro t' hl
    obtain ⟨u, b, hu, hkeeps⟩ := h.holder t' hl
    have hne : t' ≠ t := fun heq => nomatch (heq ▸ hu).symm.trans ht
    exact ⟨u, b, (Function.update_of_ne hne _ _).trans hu, hkeeps⟩
  free := h.free

theorem InStep.finish (h : InStep s) {x : Except Abandoned SessionResult}
    (hu : s.current t = some ⟨c, acts, ofResult x⟩) : InStep (s.finish t c acts x) where
  away := by
    intro t' u hu' hl
    rcases current_cases hu' with ⟨-, heq⟩ | ⟨-, hu'⟩
    · exact nomatch heq
    · exact h.away t' u hu' hl
  holder := by
    intro t' hl
    obtain ⟨u, b, hu', hkeeps, hb, hrest⟩ := h.holder t' hl
    have hne : t' ≠ t := by
      intro heq
      rw [heq, hu] at hu'
      rw [← Option.some.inj hu'] at hkeeps
      exact hb (eq_away_of_keepsTo hkeeps)
    exact ⟨u, b, (Function.update_of_ne hne _ _).trans hu', hkeeps, hb, hrest⟩
  free := h.free

/-- The call that has the lifecycle lock goes to its next beat, or gives the lock back. -/
theorem InStep.proceed (h : InStep s) {a : Access} {next : a.Reply → Program SessionResult}
    (hu : s.current t = some ⟨c, acts, .step a next⟩) (hen : a.isEnabled s.world = true)
    (hl : s.world.lifecycle = some t) : InStep (s.perform t c acts a next) := by
  obtain ⟨u, b, hu', hkeeps, hb, hf, hh⟩ := h.holder t hl
  rw [hu] at hu'
  obtain rfl := Option.some.inj hu'
  obtain ⟨b', hn⟩ := Option.isSome_iff_exists.mp (hkeeps.1 s.world.tableSize)
  have hnext : KeepsTo b' (next (a.perform t s.world).1) := hkeeps.2 t s.world b' ⟨hf, hn⟩
  have hother : ∀ t' u, t' ≠ t → s.current t' = some u → KeepsTo .away u.rest :=
    fun t' u ht' hu' => h.away t' u hu' fun hl' => ht' (Option.some.inj (hl'.symm.trans hl))
  by_cases hfree : a = .freeLifecycle
  · -- only between turns may the lock be given back, so that the marks are complete
    subst hfree
    obtain ⟨rfl, size, rfl⟩ := Beat.eq_quiet_of_next hn
    refine ⟨fun t' u hu' _ => ?_, (fun t' hl' => nomatch hl'), fun _ => ?_⟩
    · rcases current_cases hu' with ⟨-, heq⟩ | ⟨ht', hu'⟩
      · rw [← Option.some.inj heq]
        exact hnext
      · exact hother t' u ht' hu'
    · obtain ⟨turns, hturns, hmarks⟩ := hh
      show Alternates s.world.tableSize s.world.marks
      rw [show s.world.tableSize = size from hf]
      rw [hmarks, Beat.sofar, List.append_nil]
      exact hturns
  · have htake : a ≠ .takeLifecycle := by
      rintro rfl
      exact nomatch hl.symm.trans (Option.isNone_iff_eq_none.mp hen)
    have hsame : (a.perform t s.world).2.lifecycle = some t := by
      rw [Access.lifecycle_perform ((Access.isOnLifecycle_eq_false_iff a).mpr ⟨htake, hfree⟩), hl]
    obtain ⟨hb', hf', hh'⟩ := Beat.perform t hn hb hfree hf hh
    refine ⟨fun t' u hu' hl' => ?_, fun t' hl' => ?_,
      (fun hnone => nomatch hsame.symm.trans hnone)⟩
    · rcases current_cases hu' with ⟨ht', -⟩ | ⟨ht', hu'⟩
      · exact absurd (ht' ▸ hsame) hl'
      · exact hother t' u ht' hu'
    · obtain rfl := Option.some.inj (hsame.symm.trans hl')
      exact ⟨_, b', Function.update_self .., hnext, hb', hf', hh'⟩

/-- A call that does not have the lifecycle lock takes it, or does what does not show. -/
theorem InStep.proceed_away (h : InStep s) {a : Access} {next : a.Reply → Program SessionResult}
    (hu : s.current t = some ⟨c, acts, .step a next⟩) (hen : a.isEnabled s.world = true)
    (hl : s.world.lifecycle ≠ some t) : InStep (s.perform t c acts a next) := by
  have hkeeps : KeepsTo .away (.step a next) := h.away t _ hu hl
  obtain ⟨b', hn⟩ := Option.isSome_iff_exists.mp (hkeeps.1 s.world.tableSize)
  have hnext : KeepsTo b' (next (a.perform t s.world).1) := hkeeps.2 t s.world b' ⟨trivial, hn⟩
  by_cases htake : a = .takeLifecycle
  · -- the marks so far are those of complete turns, as nobody had the lock
    subst htake
    have hfree : s.world.lifecycle = none := Option.isNone_iff_eq_none.mp hen
    obtain rfl := Option.some.inj hn
    refine ⟨fun t' u hu' hl' => ?_, fun t' hl' => ?_, (fun hnone => nomatch hnone)⟩
    · rcases current_cases hu' with ⟨ht', -⟩ | ⟨-, hu'⟩
      · exact absurd (ht' ▸ rfl) hl'
      · exact h.away t' u hu' fun hl' => nomatch hfree.symm.trans hl'
    · obtain rfl := Option.some.inj hl'
      refine ⟨_, _, Function.update_self .., hnext, (fun heq => nomatch heq), rfl, ?_⟩
      exact ⟨s.world.marks, h.free hfree, (List.append_nil _).symm⟩
  · -- the one that has the lock, if any, does not see it
    obtain ⟨ha, rfl⟩ := Beat.isSilent_of_away hn htake
    obtain ⟨hsize, hmarks⟩ := Access.perform_of_silent ha t s.world
    have hlife : (a.perform t s.world).2.lifecycle = s.world.lifecycle :=
      Access.lifecycle_perform (Access.isOnLifecycle_of_isSilent ha) t s.world
    refine ⟨fun t' u hu' hl' => ?_, fun t' hl' => ?_, fun hnone => ?_⟩
    · rcases current_cases hu' with ⟨-, heq⟩ | ⟨-, hu'⟩
      · rw [← Option.some.inj heq]
        exact hnext
      · exact h.away t' u hu' (hlife ▸ hl')
    · obtain ⟨u, b, hu', hrest⟩ := h.holder t' (hlife.symm.trans hl')
      have hne : t' ≠ t := fun heq => hl (heq ▸ hlife.symm.trans hl')
      refine ⟨u, b, (Function.update_of_ne hne _ _).trans hu', ?_⟩
      show KeepsTo b u.rest ∧ b ≠ .away ∧ b.Fits (a.perform t s.world).2.tableSize ∧
        b.Heard (a.perform t s.world).2.marks
      rw [hsize, hmarks]
      exact hrest
    · show Alternates (a.perform t s.world).2.tableSize (a.perform t s.world).2.marks
      rw [hsize, hmarks]
      exact h.free (hlife.symm.trans hnone)

/-! ## runs -/

theorem InStep.step (h : InStep s) (m : Move (sessions e)) : InStep (s.step m) := by
  refine step_preserves h ?start ?finish ?perform ?outside
  case start => exact fun _ q hcan => h.start q (canStart_iff.mp hcan).1
  case finish => exact fun _ _ _ _ hu => h.finish hu
  case perform =>
    intro t c acts a next hu hen
    by_cases hl : s.world.lifecycle = some t
    · exact h.proceed hu hen hl
    · exact h.proceed_away hu hen hl
  case outside =>
    intro o _
    obtain ⟨_, _, _, _, _, _, _, ho⟩ := o.apply_eq s.world
    rw [ho]
    exact ⟨h.away, h.holder, h.free⟩

theorem InStep.run (h : InStep s) (moves : List (Move (sessions e))) :
    InStep (Concert.run moves s) :=
  run_induction (fun _ m _ h => InStep.step h m) h

theorem inStep_opened {w : World} (htable : w.table = none) (hl : w.lifecycle = none)
    (hmarks : w.marks = []) (kept : List SessionResult) :
    InStep (opened (sessions e) w kept) where
  away := fun _ _ hu => nomatch hu
  holder := fun _ ht => nomatch hl.symm.trans ht
  free := by
    intro _
    show Alternates w.tableSize w.marks
    rw [World.tableSize, htable, hmarks]
    exact .nil

theorem InStep.lifecycle_eq_none (h : InStep s) (hd : s.IsDone) : s.world.lifecycle = none :=
  hd.lifecycle_eq_none fun t hl =>
    have ⟨u, _, hu, _⟩ := h.holder t hl
    ⟨u, hu⟩

theorem InStep.exists_turns (h : InStep s) :
    ∃ size rest, Alternates size (s.world.marks ++ rest) := by
  cases hl : s.world.lifecycle with
  | none => exact ⟨_, [], by simpa using h.free hl⟩
  | some t =>
    obtain ⟨-, b, -, -, -, -, hh⟩ := h.holder t hl
    exact hh.exists_turns

/-- **Registrations and removals alternate.**  Threads make calls of all kinds, access by access and
in any order, and other parties do as they like.  At every moment what shows of tables are turns, or
the beginning of some: callbacks are registered in a pair and removed in a pair, each pair at one
registry and followed by a line with the size of the table, which a removal has from the
registration before it.  Slots are set only while there is a table.  While no call has the lifecycle
lock, as when all are over, the turns are complete, and the last is a registration if and only if
there is a table. -/
theorem registrations_and_removals_alternate {w : World} (htable : w.table = none)
    (hl : w.lifecycle = none) (hmarks : w.marks = []) (kept : List SessionResult)
    {moves : List (Move (sessions e))} (hs : run moves (opened (sessions e) w kept) = s) :
    (∃ size rest, Alternates size (s.world.marks ++ rest)) ∧
    (∀ r f, .call (.setId r f false) ∉ s.world.trace) ∧
    (∀ r f, .call (.setLocking r f false) ∉ s.world.trace) ∧
    (s.world.lifecycle = none → Alternates s.world.tableSize s.world.marks ∧
      (s.world.isInstalled = true ↔ ∃ turns r n, s.world.marks = turns ++ registration r n)) ∧
    (s.IsDone → s.world.lifecycle = none) := by
  have h : InStep s := hs ▸ (inStep_opened htable hl hmarks _).run moves
  obtain ⟨size, rest, hturns⟩ := h.exists_turns
  have hmark : ∀ {event : Event}, event.isMark = true → event ∈ s.world.trace →
      event ∈ s.world.marks ++ rest := fun hm ht =>
    List.mem_append_left _ (List.mem_filter.mpr ⟨ht, hm⟩)
  refine ⟨⟨size, rest, hturns⟩, fun r f ht => ?_, fun r f ht => ?_, fun hfree => ?_,
    h.lifecycle_eq_none⟩
  · exact hturns.installed.1 r f (hmark rfl ht)
  · exact hturns.installed.2 r f (hmark rfl ht)
  · rw [World.isInstalled_eq]
    exact ⟨h.free hfree, (h.free hfree).isSome_iff⟩

/-- A table comes to one registry and goes by way of another, which asks for a size of its own; in
between a session does not begin, as there is no seed. -/
def comeAndGo : List (Move (sessions .legacy)) :=
  [.outside (.seed false)] ++
    Move.inARow (.worker 0) (SessionRequest.table (.newHandle (.recorder 0))) 13 ++
    [.outside (.report 0 5)] ++ Move.inARow (.worker 1) SessionRequest.beginSession 13 ++
    Move.inARow .main (SessionRequest.table (.teardown (.recorder 1))) 8

theorem registrations_and_removals_alternate_comeAndGo : ∃ s : Concert (sessions .legacy),
    run comeAndGo (opened (sessions .legacy) (.initial .legacy (fun _ => 2) 3) []) = s ∧
    s.ended.map Ended.result = [.ok (.table (.handle ⟨.recorder 0, some 1⟩)),
      .ok (.failure .noEntropy), .ok (.table .nothing)] ∧
    s.world.marks = registration (.recorder 0) 2 ++ removal (.recorder 1) 2 ∧
    Alternates none (registration (.recorder 0) 2 ++ removal (.recorder 1) 2) := by
  have hd : (run comeAndGo
      (opened (sessions .legacy) (.initial .legacy (fun _ => 2) 3) [])).IsDone :=
    ((tidy_opened _ _).run comeAndGo).isDone_of_length (by cbv)
  have h := registrations_and_removals_alternate rfl rfl rfl []
    (rfl : run comeAndGo (opened _ (.initial .legacy (fun _ => 2) 3) _) = _)
  exact ⟨_, rfl, by cbv, by cbv, (h.2.2.2.1 (h.2.2.2.2 hd)).1⟩

end Concert

end CallbackLocks
