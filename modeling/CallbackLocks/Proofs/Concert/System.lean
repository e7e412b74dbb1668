import Mathlib.Data.List.Perm.Subperm
import Mathlib.Logic.Function.Basic
import CallbackLocks.Proofs.Runs.Workshop

/-!
# Calls in concert

Any number of threads make calls, access by access, and every call is on record: what was asked,
which accesses were made for it with what replies, and what came of it.

* `Service`          what threads can call for, and how each call is done
* `Task`             a call as it was made; `Underway`, `Ended`, as far as it has come
* `Concert`          the state of the process, with the calls
* `Concert.Move`, `step`, `run`   one thing that happens, and one after another
* `Concert.step_cases`, `step_preserves`   what a move can come to
* `Program.Ends`     a program ends so after accesses with these replies
* `Tidy`             no call is lost, and no two are one
* `Faithful`         **a call does what its program says, whatever others do in between**

What a request uses up, such as a handle that is dropped, has to have come from another call or to
have been there from the start.
-/

namespace CallbackLocks

open Function (update)

/-- What other parties do leaves most of the state as it is. -/
theorem Outside.apply_eq (o : Outside) (w : World) :
    ∃ slots reported hostLocks startCode startErrors seeded queues, o.apply w = { w with
      slots := slots, reported := reported, hostLocks := hostLocks, startCode := startCode,
      startErrors := startErrors, seeded := seeded, queues := queues } := by
  cases o with
  | register r f =>
    obtain ⟨s, hs⟩ := w.register_eq r f
    exact ⟨s, _, _, _, _, _, _, hs⟩
  | registerId r f =>
    obtain ⟨s, hs, -⟩ := w.registerId_eq r f
    exact ⟨s, _, _, _, _, _, _, hs⟩
  | report | reportHost | answerStart | seed | setQueue => exact ⟨_, _, _, _, _, _, _, rfl⟩

/-! ## calls -/

/-- What threads can call for. -/
structure Service where
  Request : Type
  Result : Type
  /-- the accesses of a request, up to its result -/
  program : Request → Program Result
  /-- what a request uses up -/
  uses : Request → Option Result
  [decEq : DecidableEq Result]

attribute [instance] Service.decEq

/-- A call as it was made; `number` tells it apart from all others. -/
structure Task (S : Service) where
  number : Nat
  thread : Thread
  request : S.Request

/-- An access that was made, with what was learnt from it. -/
structure Act where
  access : Access
  reply : access.Reply

structure Underway (S : Service) where
  task : Task S
  acts : List Act
  rest : Program S.Result

structure Ended (S : Service) where
  task : Task S
  acts : List Act
  result : Except Abandoned S.Result

/-! ## the system -/

/-- The state of the process, with the calls that its threads have made. -/
structure Concert (S : Service) where
  world : World
  tasks : List (Task S)
  /-- the call that a thread is in the middle of -/
  current : Thread → Option (Underway S)
  /-- the calls that have taken the lifecycle lock, in that order -/
  served : List (Task S)
  ended : List (Ended S)
  /-- the results that nothing has used up -/
  kept : List S.Result

namespace Concert

variable {S : Service}

/-- no call has been made; `kept` is there to be used up -/
def opened (S : Service) (w : World) (kept : List S.Result) : Concert S where
  world := w
  tasks := []
  current := fun _ => none
  served := []
  ended := []
  kept := kept

def IsDone (s : Concert S) : Prop := ∀ t, s.current t = none

/-- One thing that happens. -/
inductive Move (S : Service) where
  /-- a thread makes a call -/
  | start (t : Thread) (q : S.Request)
  /-- a thread makes the next access of its call, or returns from it -/
  | go (t : Thread)
  /-- another party does something -/
  | outside (o : Outside)

def Move.isOwn : Move S → Bool
  | start _ _ | go _ => true
  | outside _ => false

/-- A thread makes a call and goes on with it so many times. -/
def Move.inARow (t : Thread) (q : S.Request) (times : Nat) : List (Move S) :=
  .start t q :: List.replicate times (.go t)

/-- The thread is free, and has what the request uses up. -/
def canStart (s : Concert S) (t : Thread) (q : S.Request) : Bool :=
  (s.current t).isNone && (S.uses q).all s.kept.contains

def start (s : Concert S) (t : Thread) (q : S.Request) : Concert S :=
  { s with
    tasks := s.tasks ++ [⟨s.tasks.length, t, q⟩]
    current := update s.current t (some ⟨⟨s.tasks.length, t, q⟩, [], S.program q⟩)
    kept := match S.uses q with
      | none => s.kept
      | some x => s.kept.erase x }

def finish (s : Concert S) (t : Thread) (c : Task S) (acts : List Act)
    (x : Except Abandoned S.Result) : Concert S :=
  { s with
    current := update s.current t none
    ended := s.ended ++ [⟨c, acts, x⟩]
    kept := match x with
      | .ok x => s.kept ++ [x]
      | .error _ => s.kept }

def perform (s : Concert S) (t : Thread) (c : Task S) (acts : List Act) (a : Access)
    (next : a.Reply → Program S.Result) : Concert S :=
  { s with
    world := (a.perform t s.world).2
    current := update s.current t
      (some ⟨c, acts ++ [⟨a, (a.perform t s.world).1⟩], next (a.perform t s.world).1⟩)
    served := if a = .takeLifecycle then s.served ++ [c] else s.served }

def go (s : Concert S) (t : Thread) : Concert S :=
  match s.current t with
  | none => s
  | some ⟨c, acts, .done x⟩ => s.finish t c acts (.ok x)
  | some ⟨c, acts, .abandon e⟩ => s.finish t c acts (.error e)
  | some ⟨c, acts, .step a next⟩ =>
    if a.isEnabled s.world then s.perform t c acts a next else s

def step (s : Concert S) : Move S → Concert S
  | .start t q => if s.canStart t q then s.start t q else s
  | .go t => s.go t
  | .outside o => { s with world := o.apply s.world }

def run (moves : List (Move S)) (s : Concert S) : Concert S := moves.foldl step s

@[simp] theorem run_nil (s : Concert S) : run [] s = s := rfl

@[simp] theorem run_cons (m : Move S) (moves : List (Move S)) (s : Concert S) :
    run (m :: moves) s = run moves (s.step m) := rfl

end Concert

/-- the program that is over with that result -/
def Program.ofResult {α : Type} : Except Abandoned α → Program α
  | .ok x => .done x
  | .error e => .abandon e

@[simp] theorem Program.run_ofResult {α : Type} (who : Thread) (x : Except Abandoned α)
    (w : World) : (ofResult x).run who w = (x, w) := by
  cases x <;> rfl

namespace Concert

variable {S : Service} {s : Concert S}

/-! ## what a move can come to -/

theorem canStart_iff {t : Thread} {q : S.Request} :
    s.canStart t q = true ↔ s.current t = none ∧ ∀ x, S.uses q = some x → x ∈ s.kept := by
  simp [canStart, Option.all_eq_true]

/-- What a move can come to: nothing, a call that is made, one that is over, an access, or something
that another party does. -/
theorem step_cases (s : Concert S) (m : Move S) :
    s.step m = s ∨
      (∃ t q, m = .start t q ∧ s.canStart t q = true ∧ s.step m = s.start t q) ∨
      (∃ t c acts x, m = .go t ∧ s.current t = some ⟨c, acts, .ofResult x⟩ ∧
        s.step m = s.finish t c acts x) ∨
      (∃ t c acts a next, m = .go t ∧ s.current t = some ⟨c, acts, .step a next⟩ ∧
        a.isEnabled s.world = true ∧ s.step m = s.perform t c acts a next) ∨
      ∃ o, m = .outside o ∧ s.step m = { s with world := o.apply s.world } := by
  cases m with
  | start t q =>
    by_cases h : s.canStart t q = true
    · exact .inr (.inl ⟨t, q, rfl, h, if_pos h⟩)
    · exact .inl (if_neg h)
  | go t =>
    show s.go t = s ∨ _
    cases hu : s.current t with
    | none => exact .inl (by simp only [go, hu])
    | some u =>
      obtain ⟨c, acts, rest⟩ := u
      cases rest with
      | done x =>
        exact .inr (.inr (.inl ⟨t, c, acts, .ok x, rfl, hu, by simp only [step, go, hu]⟩))
      | abandon e =>
        exact .inr (.inr (.inl ⟨t, c, acts, .error e, rfl, hu, by simp only [step, go, hu]⟩))
      | step a next =>
        by_cases h : a.isEnabled s.world = true
        · refine .inr (.inr (.inr (.inl ⟨t, c, acts, a, next, rfl, hu, h, ?_⟩)))
          simp only [step, go, hu, if_pos h]
        · exact .inl (by simp only [go, hu, if_neg h])
  | outside o => exact .inr (.inr (.inr (.inr ⟨o, rfl, rfl⟩)))

theorem step_preserves {P : Concert S → Prop} {m : Move S} (h : P s)
    (start : ∀ t q, s.canStart t q = true → P (s.start t q))
    (finish : ∀ t c acts x, s.current t = some ⟨c, acts, .ofResult x⟩ → P (s.finish t c acts x))
    (perform : ∀ t c acts a next, s.current t = some ⟨c, acts, .step a next⟩ →
      a.isEnabled s.world = true → P (s.perform t c acts a next))
    (outside : ∀ o, m = .outside o → P { s with world := o.apply s.world }) : P (s.step m) := by
  rcases step_cases s m with hs | ⟨t, q, -, hc, hs⟩ | ⟨t, c, acts, x, -, hu, hs⟩ |
    ⟨t, c, acts, a, next, -, hu, hen, hs⟩ | ⟨o, hm, hs⟩
  · rw [hs]
    exact h
  · rw [hs]
    exact start t q hc
  · rw [hs]
    exact finish t c acts x hu
  · rw [hs]
    exact perform t c acts a next hu hen
  · rw [hs]
    exact outside o hm

theorem step_go {t : Thread} {c : Task S} {acts : List Act} {a : Access}
    {next : a.Reply → Program S.Result} (hu : s.current t = some ⟨c, acts, .step a next⟩)
    (hen : a.isEnabled s.world = true) : s.step (.go t) = s.perform t c acts a next := by
  simp only [step, go, hu, if_pos hen]

theorem run_induction {P : Concert S → Prop} {moves : List (Move S)}
    (hstep : ∀ s m, m ∈ moves → P s → P (s.step m)) (h : P s) : P (run moves s) := by
  induction moves generalizing s with
  | nil => exact h
  | cons m moves ih =>
    exact ih (fun s m' hm' => hstep s m' (List.mem_cons_of_mem m hm'))
      (hstep s m List.mem_cons_self h)

theorem current_cases {t t' : Thread} {o o' : Option (Underway S)}
    (h : update s.current t o t' = o') : t' = t ∧ o = o' ∨ t' ≠ t ∧ s.current t' = o' := by
  by_cases ht : t' = t
  · rw [ht, Function.update_self] at h
    exact .inl ⟨ht, h⟩
  · rw [Function.update_of_ne ht] at h
    exact .inr ⟨ht, h⟩

/-! ## the calls on record -/

/-- No call is lost, and no two are one. -/
structure Tidy (s : Concert S) : Prop where
  number : ∀ c ∈ s.tasks, c.number < s.tasks.length
  current : ∀ t u, s.current t = some u → u.task.thread = t ∧ u.task ∈ s.tasks
  served : ∀ c ∈ s.served, c ∈ s.tasks
  ended : ∀ e ∈ s.ended, e.task ∈ s.tasks
  apart : ∀ t u, s.current t = some u → ∀ e ∈ s.ended, e.task ≠ u.task
  once : (s.ended.map Ended.task).Nodup
  accounted : ∀ c ∈ s.tasks, (∃ e ∈ s.ended, e.task = c) ∨
    ∃ t u, s.current t = some u ∧ u.task = c

theorem tidy_opened (w : World) (kept : List S.Result) : Tidy (opened S w kept) where
  number := fun _ h => nomatch h
  current := fun _ _ h => nomatch h
  served := fun _ h => nomatch h
  ended := fun _ h => nomatch h
  apart := fun _ _ h => nomatch h
  once := List.nodup_nil
  accounted := fun _ h => nomatch h

variable {t : Thread} {c : Task S} {acts : List Act}

theorem Tidy.fresh (h : Tidy s) (t : Thread) (q : S.Request) :
    (⟨s.tasks.length, t, q⟩ : Task S) ∉ s.tasks :=
  fun hm => absurd (h.number _ hm) (Nat.lt_irrefl _)

theorem Tidy.start (h : Tidy s) (q : S.Request) (ht : s.current t = none) :
    Tidy (s.start t q) := by
  have hnew : ∀ c ∈ s.tasks, c ∈ (s.start t q).tasks := fun c hc => List.mem_append_left _ hc
  refine ⟨?_, ?_, fun c hc => hnew c (h.served c hc), fun e he => hnew _ (h.ended e he), ?_,
    h.once, ?_⟩
  · intro c hc
    show c.number < (s.tasks ++ [_]).length
    rw [List.length_append, List.length_singleton]
    rcases List.mem_append.mp hc with hc | hc
    · exact Nat.lt_succ_of_lt (h.number c hc)
    · rw [List.mem_singleton.mp hc]
      exact Nat.lt_succ_self _
  · intro t' u hu
    rcases current_cases hu with ⟨rfl, heq⟩ | ⟨-, hu⟩
    · rw [← Option.some.inj heq]
      exact ⟨rfl, List.mem_append_right _ List.mem_cons_self⟩
    · exact ⟨(h.current t' u hu).1, hnew _ (h.current t' u hu).2⟩
  · intro t' u hu e he
    rcases current_cases hu with ⟨-, heq⟩ | ⟨-, hu⟩
    · rw [← Option.some.inj heq]
      intro heq'
      replace heq' : e.task = ⟨s.tasks.length, t, q⟩ := heq'
      exact h.fresh t q (heq' ▸ h.ended e he)
    · exact h.apart t' u hu e he
  · intro c hc
    rcases List.mem_append.mp hc with hc | hc
    · rcases h.accounted c hc with he | ⟨t', u, hu, hc⟩
      · exact .inl he
      · have hne : t' ≠ t := fun heq => nomatch (heq ▸ hu).symm.trans ht
        exact .inr ⟨t', u, (Function.update_of_ne hne _ _).trans hu, hc⟩
    · rw [List.mem_singleton.mp hc]
      exact .inr ⟨t, _, Function.update_self .., rfl⟩

theorem Tidy.finish (h : Tidy s) {rest : Program S.Result} {x : Except Abandoned S.Result}
    (hu : s.current t = some ⟨c, acts, rest⟩) : Tidy (s.finish t c acts x) := by
  have hkeep : ∀ {t' u}, update s.current t none t' = some u → t' ≠ t ∧ s.current t' = some u := by
    intro t' u hu'
    rcases current_cases hu' with ⟨-, heq⟩ | h'
    · exact nomatch heq
    · exact h'
  refine ⟨h.number, fun t' u hu' => h.current t' u (hkeep hu').2, h.served, ?_, ?_, ?_, ?_⟩
  · intro e he
    rcases List.mem_append.mp he with he | he
    · exact h.ended e he
    · rw [List.mem_singleton.mp he]
      exact (h.current t _ hu).2
  · intro t' u hu' e he
    obtain ⟨hne, hu'⟩ := hkeep hu'
    rcases List.mem_append.mp he with he | he
    · exact h.apart t' u hu' e he
    · rw [List.mem_singleton.mp he]
      intro heq
      replace heq : c = u.task := heq
      have hthread : c.thread = t := (h.current t _ hu).1
      rw [heq, (h.current t' u hu').1] at hthread
      exact hne hthread
  · show ((s.ended ++ [_]).map Ended.task).Nodup
    rw [List.map_append, List.nodup_append]
    refine ⟨h.once, List.pairwise_singleton _ _, fun c' hc' c'' hc'' => ?_⟩
    obtain ⟨e, he, rfl⟩ := List.mem_map.mp hc'
    rw [List.mem_singleton.mp hc'']
    exact h.apart t _ hu e he
  · intro c' hc'
    rcases h.accounted c' hc' with ⟨e, he, rfl⟩ | ⟨t', u, hu', rfl⟩
    · exact .inl ⟨e, List.mem_append_left _ he, rfl⟩
    · by_cases ht : t' = t
      · rw [ht, hu] at hu'
        rw [← Option.some.inj hu']
        exact .inl ⟨_, List.mem_append_right _ List.mem_cons_self, rfl⟩
      · exact .inr ⟨t', u, (Function.update_of_ne ht _ _).trans hu', rfl⟩

theorem Tidy.perform (h : Tidy s) {a : Access} {next : a.Reply → Program S.Result}
    (hu : s.current t = some ⟨c, acts, .step a next⟩) : Tidy (s.perform t c acts a next) := by
  -- the call of `t` is still the same
  have hsame : ∀ {t' u}, (s.perform t c acts a next).current t' = some u →
      ∃ u', s.current t' = some u' ∧ u'.task = u.task := by
    intro t' u hu'
    rcases current_cases hu' with ⟨rfl, heq⟩ | ⟨-, hu'⟩
    · rw [← Option.some.inj heq]
      exact ⟨_, hu, rfl⟩
    · exact ⟨u, hu', rfl⟩
  refine ⟨h.number, ?_, ?_, h.ended, ?_, h.once, ?_⟩
  · intro t' u hu'
    obtain ⟨u', hu', heq⟩ := hsame hu'
    rw [← heq]
    exact h.current t' u' hu'
  · intro c' hc'
    replace hc' : c' ∈ if a = .takeLifecycle then s.served ++ [c] else s.served := hc'
    split at hc'
    · rcases List.mem_append.mp hc' with hc' | hc'
      · exact h.served c' hc'
      · rw [List.mem_singleton.mp hc']
        exact (h.current t _ hu).2
    · exact h.served c' hc'
  · intro t' u hu'
    obtain ⟨u', hu', heq⟩ := hsame hu'
    rw [← heq]
    exact h.apart t' u' hu'
  · intro c' hc'
    rcases h.accounted c' hc' with he | ⟨t', u, hu', rfl⟩
    · exact .inl he
    · by_cases ht : t' = t
      · rw [ht, hu] at hu'
        rw [← Option.some.inj hu']
        exact .inr ⟨t, _, Function.update_self .., rfl⟩
      · exact .inr ⟨t', u, (Function.update_of_ne ht _ _).trans hu', rfl⟩

theorem Tidy.step (h : Tidy s) (m : Move S) : Tidy (s.step m) := by
  refine step_preserves h ?start ?finish ?perform ?outside
  case start => exact fun _ q hc => h.start q (canStart_iff.mp hc).1
  case finish => exact fun _ _ _ _ hu => h.finish hu
  case perform => exact fun _ _ _ _ _ hu _ => h.perform hu
  case outside =>
    exact fun _ _ => ⟨h.number, h.current, h.served, h.ended, h.apart, h.once, h.accounted⟩

theorem Tidy.run (h : Tidy s) (moves : List (Move S)) : Tidy (Concert.run moves s) :=
  run_induction (fun _ m _ h => Tidy.step h m) h

theorem Tidy.exists_ended (h : Tidy s) (hd : s.IsDone) (hc : c ∈ s.tasks) :
    ∃ e ∈ s.ended, e.task = c := by
  rcases h.accounted c hc with he | ⟨t, u, hu, -⟩
  · exact he
  · exact nomatch (hd t).symm.trans hu

/-- When all is done nobody has the lifecycle lock, if whoever has it is in the middle of a call. -/
theorem IsDone.lifecycle_eq_none (hd : s.IsDone)
    (h : ∀ t, s.world.lifecycle = some t → ∃ u, s.current t = some u) :
    s.world.lifecycle = none := by
  cases hl : s.world.lifecycle with
  | none => rfl
  | some t =>
    obtain ⟨u, hu⟩ := h t hl
    exact nomatch (hd t).symm.trans hu

theorem Tidy.isDone_of_length (h : Tidy s) (hlen : s.tasks.length ≤ s.ended.length) :
    s.IsDone := by
  have hsub : (s.ended.map Ended.task).Subperm s.tasks := by
    refine List.subperm_of_subset h.once fun c hc => ?_
    obtain ⟨e, he, rfl⟩ := List.mem_map.mp hc
    exact h.ended e he
  have hperm := hsub.perm_of_length_le (by rw [List.length_map]; exact hlen)
  intro t
  cases hu : s.current t with
  | none => rfl
  | some u =>
    obtain ⟨e, he, heq⟩ := List.mem_map.mp (hperm.mem_iff.mpr (h.current t u hu).2)
    exact absurd heq (h.apart t u hu e he)

end Concert

/-! ## what programs say -/

/-- The program ends so after these accesses, each with a reply that some state of the process
gives. -/
def Program.Ends {α : Type} (who : Thread) :
    Program α → List Act → Except Abandoned α → Prop
  | done x, acts, y => acts = [] ∧ y = .ok x
  | abandon e, acts, y => acts = [] ∧ y = .error e
  | step a next, acts, y => ∃ w rest, acts = ⟨a, (a.perform who w).1⟩ :: rest ∧
      (next (a.perform who w).1).Ends who rest y

theorem Program.ends_ofResult {α : Type} (who : Thread) (x : Except Abandoned α) :
    (ofResult x).Ends who [] x := by
  cases x with
  | ok x => exact ⟨rfl, rfl⟩
  | error e => exact ⟨rfl, rfl⟩

theorem Program.exists_ends {α : Type} (who : Thread) (p : Program α) :
    ∃ acts x, p.Ends who acts x := by
  induction p with
  | done x => exact ⟨[], .ok x, rfl, rfl⟩
  | abandon e => exact ⟨[], .error e, rfl, rfl⟩
  | step a next ih =>
    obtain ⟨acts, x, h⟩ := ih (a.perform who default).1
    exact ⟨_, x, default, acts, rfl, h⟩

theorem Program.Ends.bind {α β : Type} {who : Thread} {p : Program α} {f : α → Program β}
    {acts : List Act} {y : Except Abandoned β} (h : (p.bind f).Ends who acts y) :
    (∃ e, p.Ends who acts (.error e) ∧ y = .error e) ∨
      ∃ x acts₁ acts₂, acts = acts₁ ++ acts₂ ∧ p.Ends who acts₁ (.ok x) ∧
        (f x).Ends who acts₂ y := by
  induction p generalizing acts with
  | done x => exact .inr ⟨x, [], acts, rfl, ⟨rfl, rfl⟩, h⟩
  | abandon e => exact .inl ⟨e, ⟨h.1, rfl⟩, h.2⟩
  | step a next ih =>
    obtain ⟨w, rest, rfl, hrest⟩ := h
    rcases ih _ hrest with ⟨e, he, rfl⟩ | ⟨x, acts₁, acts₂, rfl, hx, hf⟩
    · exact .inl ⟨e, ⟨w, rest, rfl, he⟩, rfl⟩
    · exact .inr ⟨x, _ :: acts₁, acts₂, rfl, ⟨w, acts₁, rfl, hx⟩, hf⟩

namespace Concert

variable {S : Service} {s : Concert S}

/-- What a call has done so far and will do is what its program says, and so is what calls that are
over have done. -/
structure Faithful (s : Concert S) : Prop where
  current : ∀ t u, s.current t = some u → ∀ acts x, u.rest.Ends t acts x →
    (S.program u.task.request).Ends t (u.acts ++ acts) x
  ended : ∀ e ∈ s.ended, (S.program e.task.request).Ends e.task.thread e.acts e.result

theorem faithful_opened (w : World) (kept : List S.Result) : Faithful (opened S w kept) where
  current := fun _ _ h => nomatch h
  ended := fun _ h => nomatch h

/-- **A call does what its program says, whatever others do in between.** -/
theorem Faithful.step (h : Faithful s) (ht : Tidy s) (m : Move S) : Faithful (s.step m) := by
  refine step_preserves h ?start ?finish ?perform ?outside
  case start =>
    refine fun t q _ => ⟨fun t' u hu => ?_, h.ended⟩
    rcases current_cases hu with ⟨rfl, heq⟩ | ⟨-, hu⟩
    · rw [← Option.some.inj heq]
      exact fun _ _ hends => hends
    · exact h.current t' u hu
  case finish =>
    refine fun t c acts x hu => ⟨fun t' u hu' => ?_, fun e he => ?_⟩
    · rcases current_cases hu' with ⟨-, heq⟩ | ⟨-, hu'⟩
      · exact nomatch heq
      · exact h.current t' u hu'
    · rcases List.mem_append.mp he with he | he
      · exact h.ended e he
      · rw [List.mem_singleton.mp he]
        have hends := h.current t _ hu [] x (Program.ends_ofResult t x)
        have hthread : c.thread = t := (ht.current t _ hu).1
        rw [List.append_nil] at hends
        rw [← hthread] at hends
        exact hends
  case perform =>
    refine fun t c acts a next hu _ => ⟨fun t' u hu' => ?_, h.ended⟩
    rcases current_cases hu' with ⟨rfl, heq⟩ | ⟨-, hu'⟩
    · rw [← Option.some.inj heq]
      intro acts' x hends
      show (S.program c.request).Ends t' (acts ++ [_] ++ acts') x
      rw [List.append_assoc]
      exact h.current t' _ hu _ x ⟨s.world, acts', rfl, hends⟩
    · exact h.current t' u hu'
  case outside => exact fun _ _ => ⟨h.current, h.ended⟩

theorem Faithful.run (h : Faithful s) (ht : Tidy s) (moves : List (Move S)) :
    Faithful (Concert.run moves s) :=
  (run_induction (P := fun s => Tidy s ∧ Faithful s)
    (fun _ m _ h => ⟨h.1.step m, h.2.step h.1 m⟩) ⟨ht, h⟩).2

end Concert

end CallbackLocks
