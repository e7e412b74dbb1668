import CallbackLocks.Proofs.Concert.System

/-!
# Watching calls

What a call may do next can depend on what it has done.  A watch keeps track of that: it says which
access may come, where each leads, and when a call may give up.

* `Watch`            what is kept track of
* `Watch.Ignores`    an access that may come and leads nowhere else
* `Program.Along`    a program that does only what the watch allows
* `Program.Along.bind`   one program after another
* `Program.Along.of_ends`   what has been done, and what has come of it, is what the watch allows
* `Concert.Recorded`   **what a call has done stays on record**
-/

namespace CallbackLocks

/-- What is kept track of as a call goes on. -/
structure Watch (σ : Type) where
  /-- the access may come next -/
  allows : σ → Access → Prop
  /-- the access, made in that state of the process, leads from the one to the other -/
  leads : σ → Access → World → σ → Prop
  /-- the call may give up -/
  quits : σ → Prop

/-- The access may come, and nothing follows from it. -/
def Watch.Ignores {σ : Type} (m : Watch σ) (b : σ) (a : Access) : Prop :=
  m.allows b a ∧ ∀ w b', m.leads b a w b' → b' = b

namespace Program

variable {α β σ : Type} {m : Watch σ} {post : σ → α → Prop} {post' : σ → β → Prop} {b : σ}

/-- The program does what the watch allows, whatever it finds, and ends so that `post` holds. -/
def Along (m : Watch σ) (post : σ → α → Prop) : Program α → σ → Prop
  | done x, b => post b x
  | abandon _, b => m.quits b
  | step a next, b => m.allows b a ∧ ∀ who w b', m.leads b a w b' →
      (next (a.perform who w).1).Along m post b'

theorem Along.bind {p : Program α} {f : α → Program β} (hp : p.Along m post b)
    (hf : ∀ b x, post b x → (f x).Along m post' b) : (p.bind f).Along m post' b := by
  induction p generalizing b with
  | done x => exact hf b x hp
  | abandon e => exact hp
  | step a next ih => exact ⟨hp.1, fun who w b' hl => ih _ (hp.2 who w b' hl)⟩

theorem Along.mono {post'' : σ → α → Prop} {p : Program α} (hp : p.Along m post b)
    (hpost : ∀ b x, post b x → post'' b x) : p.Along m post'' b := by
  induction p generalizing b with
  | done x => exact hpost b x hp
  | abandon e => exact hp
  | step a next ih => exact ⟨hp.1, fun who w b' hl => ih _ (hp.2 who w b' hl)⟩

theorem Along.skip {a : Access} {next : a.Reply → Program α} (ha : m.Ignores b a)
    (h : ∀ who w, (next (a.perform who w).1).Along m post b) : (step a next).Along m post b := by
  refine ⟨ha.1, fun who w b' hl => ?_⟩
  rw [ha.2 w b' hl]
  exact h who w

/-- What has been done, and what has come of it, is what the watch allows. -/
theorem Along.of_ends {p : Program α} {who : Thread} {acts : List Act} {y : Except Abandoned α}
    (hm : ∀ b a w, ∃ b', m.leads b a w b') (hp : p.Along m post b) (he : p.Ends who acts y) :
    (∀ act ∈ acts, ∃ b', m.allows b' act.access) ∧
      ((∃ x b', y = .ok x ∧ post b' x) ∨ ∃ e b', y = .error e ∧ m.quits b') := by
  induction p generalizing b acts with
  | done x =>
    obtain ⟨rfl, rfl⟩ := he
    exact ⟨fun _ ha => absurd ha List.not_mem_nil, .inl ⟨x, b, rfl, hp⟩⟩
  | abandon e =>
    obtain ⟨rfl, rfl⟩ := he
    exact ⟨fun _ ha => absurd ha List.not_mem_nil, .inr ⟨e, b, rfl, hp⟩⟩
  | step a next ih =>
    obtain ⟨w, rest, rfl, hrest⟩ := he
    obtain ⟨b', hl⟩ := hm b a w
    obtain ⟨hacts, hend⟩ := ih _ (hp.2 who w b' hl) hrest
    refine ⟨fun act ha => ?_, hend⟩
    rcases List.mem_cons.mp ha with rfl | ha
    · exact ⟨b, hp.1⟩
    · exact hacts act ha

end Program

namespace Concert

variable {S : Service} {s : Concert S} {c : Task S} {acts : List Act}

/-! ## what stays on record -/

/-- The call has been made, and has begun with these accesses. -/
structure Recorded (c : Task S) (acts : List Act) (s : Concert S) : Prop where
  made : c ∈ s.tasks
  current : ∀ t u, s.current t = some u → u.task = c → acts <+: u.acts
  ended : ∀ e ∈ s.ended, e.task = c → acts <+: e.acts

theorem Tidy.recorded (h : Tidy s) {t : Thread} {u : Underway S} (hu : s.current t = some u) :
    Recorded u.task u.acts s where
  made := (h.current t u hu).2
  current := by
    intro t' u' hu' heq
    have ht : t' = t := by rw [← (h.current t' u' hu').1, heq, (h.current t u hu).1]
    rw [ht, hu] at hu'
    obtain rfl := Option.some.inj hu'
    exact List.prefix_rfl
  ended := fun e he heq => absurd heq (h.apart t u hu e he)

/-- **What a call has done stays on record.** -/
theorem Recorded.step (h : Recorded c acts s) (hs : Tidy s) (m : Move S) :
    Recorded c acts (s.step m) := by
  refine step_preserves h ?start ?finish ?perform ?outside
  case start =>
    refine fun t q _ => ⟨List.mem_append_left _ h.made, fun t' u hu heq => ?_, h.ended⟩
    rcases current_cases hu with ⟨-, heq'⟩ | ⟨-, hu⟩
    · rw [← Option.some.inj heq'] at heq
      replace heq : ⟨s.tasks.length, t, q⟩ = c := heq
      exact absurd (heq ▸ h.made) (hs.fresh t q)
    · exact h.current t' u hu heq
  case finish =>
    refine fun t d acts' x hu => ⟨h.made, fun t' u hu' heq => ?_, fun e he heq => ?_⟩
    · rcases current_cases hu' with ⟨-, heq'⟩ | ⟨-, hu'⟩
      · exact nomatch heq'
      · exact h.current t' u hu' heq
    · rcases List.mem_append.mp he with he | he
      · exact h.ended e he heq
      · rw [List.mem_singleton.mp he] at heq ⊢
        exact h.current t _ hu heq
  case perform =>
    refine fun t d acts' a next hu _ => ⟨h.made, fun t' u hu' heq => ?_, h.ended⟩
    rcases current_cases hu' with ⟨-, heq'⟩ | ⟨-, hu'⟩
    · rw [← Option.some.inj heq'] at heq ⊢
      exact (h.current t _ hu heq).trans (List.prefix_append _ _)
    · exact h.current t' u hu' heq
  case outside => exact fun _ _ => ⟨h.made, h.current, h.ended⟩

theorem Recorded.run (h : Recorded c acts s) (hs : Tidy s) (moves : List (Move S)) :
    Recorded c acts (Concert.run moves s) :=
  (run_induction (P := fun s => Tidy s ∧ Recorded c acts s)
    (fun _ m _ h => ⟨h.1.step m, h.2.step h.1 m⟩) ⟨hs, h⟩).2

end Concert

end CallbackLocks
