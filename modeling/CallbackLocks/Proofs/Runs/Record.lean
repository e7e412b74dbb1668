import CallbackLocks.Proofs.Runs.Workshop

/-!
# What has been done, and when

The trace shows what an observer sees.  A record also has the accesses that nobody sees, each with
the state that it was made in.

* `Moment`           an access with the state that it was made in
* `Program.moments`  the moments of a program that nobody comes between
* `Workshop.moment?`, `record`   the moments of a move and of a run, with the calls they are for
* `Workshop.record_induction`   what every move preserves of them
* `Workshop.edition_run`   the kind of the host library does not change
-/

namespace CallbackLocks

/-- An access as it is made. -/
structure Moment where
  access : Access
  /-- the state of the process just before -/
  world : World

namespace Program

variable {α β : Type}

/-- all accesses of a program in a row, made by `who` -/
def moments (who : Thread) : Program α → World → List Moment
  | done _, _ | abandon _, _ => []
  | step a next, w => ⟨a, w⟩ :: (next (a.perform who w).1).moments who (a.perform who w).2

theorem moments_step (who : Thread) (a : Access) (next : a.Reply → Program α) (w : World) :
    (step a next).moments who w
      = ⟨a, w⟩ :: (next (a.perform who w).1).moments who (a.perform who w).2 := rfl

theorem moments_bind (who : Thread) (p : Program α) (f : α → Program β) (w : World) :
    (p.bind f).moments who w = p.moments who w ++
      match p.run who w with
      | (.ok x, w') => (f x).moments who w'
      | (.error _, _) => [] := by
  induction p generalizing w with
  | done x => rfl
  | abandon e => rfl
  | step a next ih => rw [bind_step, moments_step, moments_step, run_step, ih, List.cons_append]

end Program

namespace Workshop

def moment? (s : Workshop) : Move → Option (Deed × Moment)
  | .go t => match s.errand t with
    | some ⟨d, .step a _⟩ => if a.isEnabled s.world then some (d, ⟨a, s.world⟩) else none
    | _ => none
  | _ => none

/-- the accesses that a run makes, in order -/
def record : List Move → Workshop → List (Deed × Moment)
  | [], _ => []
  | m :: ms, s => (s.moment? m).toList ++ match s.step m with
    | .error _ => []
    | .ok s' => record ms s'

theorem record_cons {s s' : Workshop} {m : Move} {ms : List Move} (h : s.step m = .ok s') :
    record (m :: ms) s = (s.moment? m).toList ++ record ms s' := by
  rw [record, h]

theorem moment?_go_of_step {s : Workshop} {t : Thread} {d : Deed} {a : Access}
    {next : a.Reply → Program Prize} (he : s.errand t = some ⟨d, .step a next⟩)
    (hen : a.isEnabled s.world = true) : s.moment? (.go t) = some (d, ⟨a, s.world⟩) := by
  simp only [moment?, he, hen, if_true]

theorem moment?_go_eq_none {s : Workshop} {t : Thread}
    (h : ∀ d a next, s.errand t = some ⟨d, .step a next⟩ → a.isEnabled s.world = false) :
    s.moment? (.go t) = none := by
  simp only [moment?]
  split
  · rename_i d a next he
    rw [h d a next he]
    rfl
  · rfl

/-- all that `look` sees in the moves of a run, in order -/
def gather {α : Type} (look : Workshop → Move → Option α) : List Move → Workshop → List α
  | [], _ => []
  | m :: ms, s => (look s m).toList ++ match s.step m with
    | .error _ => []
    | .ok s' => gather look ms s'

theorem record_eq_gather (ms : List Move) (s : Workshop) : record ms s = gather moment? ms s := by
  induction ms generalizing s with
  | nil => rfl
  | cons m ms ih => simp only [record, gather, ih]

/-- What holds of what has been seen, with the state it has led to, holds at the end of a run if
every move preserves it. -/
theorem gather_induction {α : Type} {look : Workshop → Move → Option α}
    {P : List α → Workshop → Prop} {ms : List Move}
    (hstep : ∀ m ∈ ms, ∀ seen s s', P seen s → s.step m = .ok s' → P (seen ++ (look s m).toList) s')
    {seen : List α} {s s' : Workshop} (h : P seen s) (hr : run ms s = .ok s') :
    P (seen ++ gather look ms s) s' := by
  induction ms generalizing seen s with
  | nil =>
    rw [← Except.ok.inj hr, gather, List.append_nil]
    exact h
  | cons m ms ih =>
    unfold run at hr
    split at hr
    · exact nomatch hr
    · rename_i s₁ hs₁
      rw [gather, hs₁, ← List.append_assoc]
      exact ih (fun m' hm' => hstep m' (List.mem_cons_of_mem _ hm'))
        (hstep m List.mem_cons_self seen s s₁ h hs₁) hr

/-- What holds of what has been recorded, with the state it has led to, holds at the end of a run if
every move preserves it. -/
theorem record_induction {P : List (Deed × Moment) → Workshop → Prop}
    (hstep : ∀ m rec s s', P rec s → s.step m = .ok s' → P (rec ++ (s.moment? m).toList) s')
    {ms : List Move} {rec : List (Deed × Moment)} {s s' : Workshop} (h : P rec s)
    (hr : run ms s = .ok s') : P (rec ++ record ms s) s' := by
  rw [record_eq_gather]
  exact gather_induction (fun m _ => hstep m) h hr

/-! ## the kind of the host library -/

theorem edition_register (w : World) (r : Registry) (f : Option LockCallback) :
    (w.register r f).edition = w.edition := by
  obtain ⟨slots, hs⟩ := w.register_eq r f
  rw [hs]

theorem edition_registerId (w : World) (r : Registry) (f : Option IdCallback) :
    (w.registerId r f).edition = w.edition := by
  obtain ⟨slots, hs, -⟩ := w.registerId_eq r f
  rw [hs]

theorem edition_perform (a : Access) (who : Thread) (w : World) :
    (a.perform who w).2.edition = w.edition := by
  cases a with
  | setLocking r f => exact edition_register w r f
  | setId r f => exact edition_registerId w r f
  | _ => rfl

theorem edition_outside (o : Outside) (w : World) : (o.apply w).edition = w.edition := by
  cases o with
  | register r f => exact edition_register w r f
  | registerId r f => exact edition_registerId w r f
  | _ => rfl

end Workshop

end CallbackLocks
