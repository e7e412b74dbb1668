import CallbackLocks.Proofs.Concert.Tables

/-!
# One at a time

Calls that do all that they do under the lifecycle lock come to what they would come to one at a
time, in the order in which they have taken that lock.

* `Program.history`  the accesses of a run with nothing between them, and what each has shown
* `Concert.oneAtATime`   what comes of calls that are made one after another
* `Serial`           the call that has the lifecycle lock is in the middle of what it would do alone
                     after those before it; calls before and after their turn do nothing
* `Serial.step`      **every access preserves it**
-/

namespace CallbackLocks

open Function (update)
open Program (ofResult)

theorem Program.ofResult_inj {α : Type} {x y : Except Abandoned α} (h : ofResult x = ofResult y) :
    x = y := by
  cases x with
  | ok x =>
    cases y with
    | ok y => rw [Program.done.inj h]
    | error e => exact nomatch h
  | error e =>
    cases y with
    | ok y => exact nomatch h
    | error e' => rw [Program.abandon.inj h]

theorem Program.step_ne_ofResult {α : Type} {a : Access} {next : a.Reply → Program α}
    {x : Except Abandoned α} : Program.step a next ≠ ofResult x := by
  cases x with
  | ok x => exact fun h => nomatch h
  | error e => exact fun h => nomatch h

/-- the accesses of a run, with what was learnt from each -/
def Program.history {α : Type} (who : Thread) : Program α → World → List Act
  | done _, _ | abandon _, _ => []
  | step a next, w => ⟨a, (a.perform who w).1⟩ ::
      (next (a.perform who w).1).history who (a.perform who w).2

theorem Program.history_ofResult {α : Type} (who : Thread) (x : Except Abandoned α) (w : World) :
    (ofResult x).history who w = [] := by
  cases x <;> rfl

@[simp] theorem Program.history_step {α : Type} (who : Thread) (a : Access)
    (next : a.Reply → Program α) (w : World) : (step a next).history who w =
      ⟨a, (a.perform who w).1⟩ :: (next (a.perform who w).1).history who (a.perform who w).2 := rfl

theorem Program.history_bind {α β : Type} (who : Thread) (p : Program α) (f : α → Program β)
    (w : World) : (p.bind f).history who w = p.history who w ++
      match p.run who w with
      | (.ok x, w') => (f x).history who w'
      | (.error _, _) => [] := by
  induction p generalizing w with
  | done x => rfl
  | abandon e => rfl
  | step a next ih => simp only [bind_step, history_step, run_step, ih, List.cons_append]

theorem Program.not_inside_ofResult {α : Type} (x : Except Abandoned α) :
    ¬ (ofResult x).Inside := by
  cases x with
  | ok x => exact id
  | error e => exact id

namespace Concert

variable {S : Service}

/-! ## one call after another -/

/-- What comes of a call when nobody comes between. -/
def alone (c : Task S) (w : World) : Ended S :=
  ⟨c, (S.program c.request).history c.thread w, ((S.program c.request).run c.thread w).1⟩

/-- Calls one at a time: what comes of each, and the state after the last. -/
def oneAtATime : List (Task S) → World → List (Ended S) × World
  | [], w => ([], w)
  | c :: cs, w =>
    let rest := oneAtATime cs ((S.program c.request).run c.thread w).2
    (alone c w :: rest.1, rest.2)

theorem oneAtATime_concat (cs : List (Task S)) (c : Task S) (w : World) :
    oneAtATime (cs ++ [c]) w =
      ((oneAtATime cs w).1 ++ [alone c (oneAtATime cs w).2],
        ((S.program c.request).run c.thread (oneAtATime cs w).2).2) := by
  induction cs generalizing w with
  | nil => rfl
  | cons d cs ih =>
    show oneAtATime (d :: (cs ++ [c])) w = _
    simp only [oneAtATime, ih, List.cons_append]

theorem map_task_oneAtATime (cs : List (Task S)) (w : World) :
    (oneAtATime cs w).1.map Ended.task = cs := by
  induction cs generalizing w with
  | nil => rfl
  | cons c cs ih => simp only [oneAtATime, List.map_cons, ih, alone]

/-! ## what holds in the midst of calls -/

/-- The call has not had its turn. -/
structure Waits (served : List (Task S)) (u : Underway S) : Prop where
  acts : u.acts = []
  rest : u.rest = S.program u.task.request
  turn : u.task ∉ served

/-- The process is in the middle of what one call does alone, after the calls that had their turn
before it.  No other call does anything. -/
structure Serial (w : World) (s : Concert S) : Prop where
  free : s.world.lifecycle = none → s.world = (oneAtATime s.served w).2
  holder : ∀ t, s.world.lifecycle = some t → ∃ u x, s.current t = some u ∧ u.rest.Inside ∧
    ⟨u.task, u.acts ++ u.rest.history t s.world, x⟩ ∈ (oneAtATime s.served w).1 ∧
    u.rest.run t s.world = (x, (oneAtATime s.served w).2)
  others : ∀ t u, s.current t = some u → s.world.lifecycle ≠ some t → Waits s.served u ∨
    ∃ x, u.rest = ofResult x ∧ ⟨u.task, u.acts, x⟩ ∈ (oneAtATime s.served w).1
  ended : ∀ e ∈ s.ended, e ∈ (oneAtATime s.served w).1 ∨
    e.acts = [] ∧ e.task ∉ s.served ∧ S.program e.task.request = ofResult e.result
  once : s.served.Nodup

theorem serial_opened {w : World} (h : w.lifecycle = none) (kept : List S.Result) :
    Serial w (opened S w kept) where
  free := fun _ => rfl
  holder := fun _ ht => nomatch h.symm.trans ht
  others := fun _ _ hu => nomatch hu
  ended := fun _ he => nomatch he
  once := List.nodup_nil

variable {w : World} {s : Concert S} {t : Thread} {c : Task S} {acts : List Act}

theorem Serial.lifecycle_eq_none (h : Serial w s) (hd : s.IsDone) : s.world.lifecycle = none :=
  hd.lifecycle_eq_none fun t hl =>
    have ⟨u, _, hu, _⟩ := h.holder t hl
    ⟨u, hu⟩

theorem mem_oneAtATime_concat {e : Ended S} {served : List (Task S)}
    (h : e ∈ (oneAtATime served w).1) (c : Task S) : e ∈ (oneAtATime (served ++ [c]) w).1 := by
  rw [oneAtATime_concat]
  exact List.mem_append_left _ h

theorem Serial.start (h : Serial w s) (hs : Tidy s) (q : S.Request) (ht : s.current t = none) :
    Serial w (s.start t q) where
  free := h.free
  holder := by
    intro t' hl
    obtain ⟨u, x, hu, hrest⟩ := h.holder t' hl
    have hne : t' ≠ t := fun heq => nomatch (heq ▸ hu).symm.trans ht
    exact ⟨u, x, (Function.update_of_ne hne _ _).trans hu, hrest⟩
  others := by
    intro t' u hu hl
    rcases current_cases hu with ⟨-, heq⟩ | ⟨-, hu⟩
    · rw [← Option.some.inj heq]
      exact .inl ⟨rfl, rfl, fun hm => hs.fresh t q (hs.served _ hm)⟩
    · exact h.others t' u hu hl
  ended := h.ended
  once := h.once

theorem Serial.finish (h : Serial w s) {x : Except Abandoned S.Result}
    (hu : s.current t = some ⟨c, acts, ofResult x⟩) : Serial w (s.finish t c acts x) := by
  have hl : s.world.lifecycle ≠ some t := by
    intro hl
    obtain ⟨u, y, hu', hin, -⟩ := h.holder t hl
    rw [hu] at hu'
    rw [← Option.some.inj hu'] at hin
    exact Program.not_inside_ofResult x hin
  refine ⟨h.free, ?_, ?_, ?_, h.once⟩
  · intro t' hl'
    obtain ⟨u, y, hu', hrest⟩ := h.holder t' hl'
    have hne : t' ≠ t := fun heq => hl (heq ▸ hl')
    exact ⟨u, y, (Function.update_of_ne hne _ _).trans hu', hrest⟩
  · intro t' u hu' hl'
    rcases current_cases hu' with ⟨-, heq⟩ | ⟨-, hu'⟩
    · exact nomatch heq
    · exact h.others t' u hu' hl'
  · intro e he
    rcases List.mem_append.mp he with he | he
    · exact h.ended e he
    · rw [List.mem_singleton.mp he]
      rcases h.others t _ hu hl with hw | ⟨y, hy, hset⟩
      · exact .inr ⟨hw.acts, hw.turn, hw.rest.symm⟩
      · rw [Program.ofResult_inj hy]
        exact .inl hset

/-- Of the call that has the lifecycle lock, the access that is made is the next in its history. -/
theorem Serial.next_act (h : Serial w s) {a : Access} {next : a.Reply → Program S.Result}
    (hu : s.current t = some ⟨c, acts, .step a next⟩) (hl : s.world.lifecycle = some t) :
    (Program.step a next).Inside ∧ ∃ x,
      ⟨c, acts ++ [⟨a, (a.perform t s.world).1⟩] ++
        (next (a.perform t s.world).1).history t (a.perform t s.world).2, x⟩ ∈
          (oneAtATime s.served w).1 ∧
      (next (a.perform t s.world).1).run t (a.perform t s.world).2 =
        (x, (oneAtATime s.served w).2) := by
  obtain ⟨u, x, hu', hin, hset, hrun⟩ := h.holder t hl
  rw [hu] at hu'
  obtain rfl := Option.some.inj hu'
  refine ⟨hin, x, ?_, hrun⟩
  rw [List.append_assoc]
  exact hset

/-- While a call has the lifecycle lock, all others are before their turn or after it. -/
theorem Serial.apart (h : Serial w s) (hl : s.world.lifecycle = some t) {t' : Thread}
    {u : Underway S} (ht : t' ≠ t) (hu : s.current t' = some u) : Waits s.served u ∨
      ∃ x, u.rest = ofResult x ∧ ⟨u.task, u.acts, x⟩ ∈ (oneAtATime s.served w).1 :=
  h.others t' u hu fun hl' => ht (Option.some.inj (hl'.symm.trans hl))

theorem Serial.proceed (h : Serial w s) {a : Access} {next : a.Reply → Program S.Result}
    (hu : s.current t = some ⟨c, acts, .step a next⟩) (hl : s.world.lifecycle = some t)
    (hfree : a ≠ .freeLifecycle) : Serial w (s.perform t c acts a next) := by
  obtain ⟨hin, x, hset, hrun⟩ := h.next_act hu hl
  have hserved : (s.perform t c acts a next).served = s.served := if_neg hin.1
  have hnext : (next (a.perform t s.world).1).Inside := (if_neg hfree).mp (hin.2 _)
  have hsame : (a.perform t s.world).2.lifecycle = some t := by
    rw [Access.lifecycle_perform ((Access.isOnLifecycle_eq_false_iff a).mpr ⟨hin.1, hfree⟩), hl]
  refine ⟨?_, ?_, ?_, ?_, ?_⟩
  · exact fun hnone => nomatch hsame.symm.trans hnone
  · rw [hserved]
    intro t' hl'
    obtain rfl := Option.some.inj (hsame.symm.trans hl')
    exact ⟨_, x, Function.update_self .., hnext, hset, hrun⟩
  · rw [hserved]
    intro t' u hu' hl'
    rcases current_cases hu' with ⟨ht', -⟩ | ⟨ht', hu'⟩
    · exact absurd (ht' ▸ hsame) hl'
    · exact h.apart hl ht' hu'
  · rw [hserved]
    exact h.ended
  · rw [hserved]
    exact h.once

/-- The lifecycle lock is given back, when the call has nothing left to do. -/
theorem Serial.leave (h : Serial w s) {next : Unit → Program S.Result}
    (hu : s.current t = some ⟨c, acts, .step .freeLifecycle next⟩)
    (hl : s.world.lifecycle = some t) : Serial w (s.perform t c acts .freeLifecycle next) := by
  obtain ⟨hin, x, hset, hrun⟩ := h.next_act hu hl
  obtain ⟨y, hy⟩ : (next ()).IsOver := (if_pos rfl).mp (hin.2 ())
  replace hy : next (Access.freeLifecycle.perform t s.world).1 = ofResult y := hy
  rw [hy, Program.run_ofResult, Prod.mk.injEq] at hrun
  rw [hy, Program.history_ofResult, List.append_nil] at hset
  refine ⟨fun _ => hrun.2, (fun t' hl' => nomatch hl'), ?_, h.ended, h.once⟩
  intro t' u hu' _
  rcases current_cases hu' with ⟨-, heq⟩ | ⟨ht', hu'⟩
  · rw [← Option.some.inj heq]
    exact .inr ⟨y, hy, hrun.1.symm ▸ hset⟩
  · exact h.apart hl ht' hu'

/-- A call that goes on without the lifecycle lock has done nothing, and takes it. -/
theorem Serial.takes (h : Serial w s) (hg : ∀ q, (S.program q).Guarded) {p : Program S.Result}
    (hu : s.current t = some ⟨c, acts, p⟩) (hp : ¬ p.IsOver) (hl : s.world.lifecycle ≠ some t) :
    acts = [] ∧ c ∉ s.served ∧ ∃ next : Unit → Program S.Result,
      p = .step .takeLifecycle next ∧ S.program c.request = p ∧ (next ()).Inside := by
  have hw : Waits s.served ⟨c, acts, p⟩ :=
    (h.others t _ hu hl).resolve_right fun ⟨x, hx, _⟩ => hp ⟨x, hx⟩
  have hrest : p = S.program c.request := hw.rest
  obtain ⟨next, hprog, hin⟩ := (hg c.request).resolve_left (hrest ▸ hp)
  exact ⟨hw.acts, hw.turn, next, hrest.trans hprog, hrest.symm, hin⟩

/-- A call takes the lifecycle lock, which is its turn. -/
theorem Serial.take (h : Serial w s) (hs : Tidy s) {next : Unit → Program S.Result}
    (hu : s.current t = some ⟨c, [], .step .takeLifecycle next⟩)
    (hprog : S.program c.request = .step .takeLifecycle next) (hin : (next ()).Inside)
    (hturn : c ∉ s.served) (hfree : s.world.lifecycle = none) :
    Serial w (s.perform t c [] .takeLifecycle next) := by
  have hthread : c.thread = t := (hs.current t _ hu).1
  -- alone, the call would find the state that it does find
  have hlast : (S.program c.request).run c.thread (oneAtATime s.served w).2
      = (next ()).run t { s.world with lifecycle := some t } := by
    rw [hprog, hthread, ← h.free hfree]
    rfl
  have hhist : (S.program c.request).history c.thread (oneAtATime s.served w).2
      = ⟨.takeLifecycle, ()⟩ :: (next ()).history t { s.world with lifecycle := some t } := by
    rw [hprog, hthread, ← h.free hfree]
    rfl
  have hone := oneAtATime_concat s.served c w
  rw [hlast] at hone
  refine ⟨?_, ?_, ?_, ?_, ?_⟩
  · exact fun hnone => nomatch hnone
  · intro t' hl'
    obtain rfl := Option.some.inj hl'
    refine ⟨_, _, Function.update_self .., hin, ?_, Prod.ext rfl ?_⟩
    · show ⟨c, _, _⟩ ∈ (oneAtATime (s.served ++ [c]) w).1
      rw [hone, alone, hlast, hhist]
      exact List.mem_append_right _ List.mem_cons_self
    · show _ = (oneAtATime (s.served ++ [c]) w).2
      rw [hone]
      rfl
  · intro t' u hu' hl'
    rcases current_cases hu' with ⟨ht', -⟩ | ⟨ht', hu'⟩
    · exact absurd (ht' ▸ rfl) hl'
    · rcases h.others t' u hu' (fun hl' => nomatch hfree.symm.trans hl') with hw' | ⟨x, hx, hset⟩
      · refine .inl ⟨hw'.acts, hw'.rest, fun hm => ?_⟩
        rcases List.mem_append.mp hm with hm | hm
        · exact hw'.turn hm
        · have hthread' : u.task.thread = t' := (hs.current t' u hu').1
          rw [List.mem_singleton.mp hm, hthread] at hthread'
          exact ht' hthread'.symm
      · exact .inr ⟨x, hx, mem_oneAtATime_concat hset c⟩
  · intro e he
    rcases h.ended e he with hset | ⟨hacts, hturn, hprog⟩
    · exact .inl (mem_oneAtATime_concat hset c)
    · refine .inr ⟨hacts, fun hm => ?_, hprog⟩
      rcases List.mem_append.mp hm with hm | hm
      · exact hturn hm
      · exact hs.apart t _ hu e he (List.mem_singleton.mp hm)
  · show (s.served ++ [c]).Nodup
    rw [List.nodup_append]
    refine ⟨h.once, List.pairwise_singleton _ _, fun d hd d' hd' heq => ?_⟩
    rw [List.mem_singleton.mp hd'] at heq
    exact hturn (heq ▸ hd)

/-- **Every access preserves it.** -/
theorem Serial.step (h : Serial w s) (hs : Tidy s) (hg : ∀ q, (S.program q).Guarded) {m : Move S}
    (hm : m.isOwn = true) : Serial w (s.step m) := by
  refine step_preserves h ?start ?finish ?perform ?outside
  case start => exact fun _ q hc => h.start hs q (canStart_iff.mp hc).1
  case finish => exact fun _ _ _ _ hu => h.finish hu
  case perform =>
    intro t c acts a next hu hen
    by_cases hl : s.world.lifecycle = some t
    · by_cases hfree : a = .freeLifecycle
      · subst hfree
        exact h.leave hu hl
      · exact h.proceed hu hl hfree
    · have hp : ¬ (Program.step a next).IsOver := fun ⟨_, hx⟩ => Program.step_ne_ofResult hx
      obtain ⟨rfl, hturn, next', heq, hprog, hin⟩ := h.takes hg hu hp hl
      obtain ⟨rfl, hnext⟩ := Program.step.inj heq
      obtain rfl := eq_of_heq hnext
      exact h.take hs hu hprog hin hturn (Option.isNone_iff_eq_none.mp hen)
  case outside =>
    rintro o rfl
    exact nomatch hm

theorem Serial.run (h : Serial w s) (hs : Tidy s) (hg : ∀ q, (S.program q).Guarded)
    {moves : List (Move S)} (hm : ∀ m ∈ moves, m.isOwn = true) :
    Serial w (Concert.run moves s) :=
  (run_induction (P := fun s => Tidy s ∧ Serial w s)
    (fun _ m hmem h => ⟨h.1.step m, h.2.step h.1 hg (hm m hmem)⟩) ⟨hs, h⟩).2

end Concert

end CallbackLocks
