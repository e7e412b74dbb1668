import CallbackLocks.Proofs.Runs.Record
import CallbackLocks.Proofs.Runs.Tenure

/-!
# Operations that nobody comes between, as moves

A thread that goes on with its operation while nobody else moves makes all accesses of the operation
in a row, if none of them has to wait.

* `Program.IsUnhindered`   none has to wait
* `Operation.isUnhindered`   none does if nobody has the lifecycle lock
* `Workshop.run_replicate_go`   **so many moves of a thread are one run of its program**
* `Workshop.run_inARow`   an operation that is started and carried out
-/

namespace CallbackLocks

/-- A thread that does not have the lifecycle lock after an access has given it back just now, or
has not had it before. -/
theorem Watch.out_of_tenure {op : Operation} {b : Tenure} {a : Access} {w : World}
    (hl : (tenure op).leads b a w .out) :
    a = .freeLifecycle ∨ a.isOnLifecycle = false ∧ b = .out := by
  cases a with
  | freeLifecycle => exact .inl rfl
  | takeLifecycle => exact nomatch (hl : Tenure.out = .inside)
  | readGeneration =>
    replace hl : Tenure.out = if op.aims w.generation then .aimed else .inside := hl
    split at hl <;> exact nomatch hl
  | setLocking r f =>
    cases f with
    | none => exact nomatch (hl : Tenure.out = .cleared)
    | some f => exact .inr ⟨rfl, hl.symm⟩
  | _ => exact .inr ⟨rfl, hl.symm⟩

/-! ## accesses that have to wait -/

namespace Program

variable {α β : Type} {who : Thread} {w : World} {p : Program α} {f : α → Program β}

/-- Of all accesses in a row, made by `who`, none has to wait. -/
def IsUnhindered (who : Thread) (p : Program α) (w : World) : Prop :=
  ∀ x ∈ p.moments who w, x.access.isEnabled x.world = true

theorem isUnhindered_done (x : α) : (done x).IsUnhindered who w :=
  fun _ hx => absurd hx List.not_mem_nil

theorem isUnhindered_step {a : Access} {next : a.Reply → Program α} :
    (step a next).IsUnhindered who w ↔ a.isEnabled w = true ∧
      (next (a.perform who w).1).IsUnhindered who (a.perform who w).2 :=
  List.forall_mem_cons

theorem IsUnhindered.bind (hp : p.IsUnhindered who w)
    (hf : ∀ x w', p.run who w = (.ok x, w') → (f x).IsUnhindered who w') :
    (p.bind f).IsUnhindered who w := by
  intro x hx
  rw [moments_bind] at hx
  rcases List.mem_append.mp hx with hx | hx
  · exact hp x hx
  · split at hx
    · rename_i y w' hrun
      exact hf y w' hrun x hx
    · exact absurd hx List.not_mem_nil

theorem IsUnhindered.bind_of_run {x : α} {w' : World} (hp : p.IsUnhindered who w)
    (hrun : p.run who w = (.ok x, w')) (hf : (f x).IsUnhindered who w') :
    (p.bind f).IsUnhindered who w := by
  refine hp.bind fun y v hy => ?_
  obtain ⟨hx, rfl⟩ := Prod.mk.inj (hy.symm.trans hrun)
  rw [Except.ok.inj hx]
  exact hf

/-- If nobody has the lifecycle lock while the thread does not, no access has to wait. -/
theorem Along.isUnhindered {op : Operation} {b : Tenure} {post : Tenure → α → Prop}
    (hp : p.Along (.tenure op) post b) (hw : b = .out → w.lifecycle = none) :
    p.IsUnhindered who w := by
  induction p generalizing b w with
  | done x => exact isUnhindered_done x
  | abandon e => exact fun _ hx => absurd hx List.not_mem_nil
  | step a next ih =>
    obtain ⟨b', hl⟩ := Watch.exists_tenure op b a w
    refine isUnhindered_step.mpr ⟨?_, ih _ (hp.2 who w b' hl) fun hb' => ?_⟩
    · rw [Access.isEnabled_iff]
      rintro rfl
      exact hw hp.1
    · subst hb'
      rcases Watch.out_of_tenure hl with rfl | ⟨ha, hb⟩
      · rfl
      · rw [Access.lifecycle_perform ha]
        exact hw hb

end Program

theorem Operation.isUnhindered {op : Operation} (hop : ∀ r, op ≠ .teardown r) {w : World}
    (hw : w.lifecycle = none) (e : Edition) (who : Thread) :
    (op.program e).IsUnhindered who w :=
  (op.tenure_along e hop).isUnhindered fun _ => hw

/-! ## moves -/

namespace Workshop

open Program

variable {s : Workshop} {t : Thread} {d : Deed}

/-- The holdings that a call leaves its thread with, if it comes back. -/
def holdingsOf (d : Deed) : Except Abandoned Prize → List Holding
  | .ok p => p.holdings d
  | .error _ => []

theorem setErrand_setErrand (s : Workshop) (t : Thread) (e e' : Option Errand) :
    (s.setErrand t e).setErrand t e' = s.setErrand t e' := by
  simp only [setErrand]
  congr 1
  funext t'
  split <;> rfl

/-- **So many moves of a thread are one run of its program**, after which it has nothing to do. -/
theorem run_replicate_go {p : Program Prize} (he : s.errand t = some ⟨d, p⟩)
    (hp : p.IsUnhindered t s.world) : ∃ n s', run (List.replicate n (.go t)) s = .ok s' ∧
      s'.world = (p.run t s.world).2 ∧ s'.errand = (s.setErrand t none).errand ∧
      s'.live = s.live ++ holdingsOf d (p.run t s.world).1 := by
  have hgo : ∀ {n : Nat}, run (List.replicate (n + 1) (.go t)) s
      = run (List.replicate n (.go t)) (s.go t) := run_cons rfl
  induction p generalizing s with
  | done x =>
    have hs₁ : s.go t = { s with live := s.live ++ x.holdings d }.setErrand t none := by
      simp only [go, he]
    exact ⟨1, _, hgo.trans (congrArg Except.ok hs₁), rfl, rfl, rfl⟩
  | abandon why =>
    have hs₁ : s.go t = s.setErrand t none := by simp only [go, he]
    exact ⟨1, _, hgo.trans (congrArg Except.ok hs₁), rfl, rfl, (List.append_nil _).symm⟩
  | step a next ih =>
    obtain ⟨hen, hnext⟩ := isUnhindered_step.mp hp
    let s₁ : Workshop := { s with ledger := (s.ledger.perform d t a).2 }.setErrand t
      (some ⟨d, next (a.perform t s.world).1⟩)
    have hs₁ : s.go t = s₁ := by simp only [go, he, hen, if_true, s₁]
    have hworld : s₁.world = (a.perform t s.world).2 := s.ledger.world_perform d t a
    have he₁ : s₁.errand t = some ⟨d, next (a.perform t s.world).1⟩ := if_pos rfl
    rw [← hworld] at hnext
    obtain ⟨n, s', hrun, hw', herrand, hlive⟩ := ih _ he₁ hnext (run_cons rfl)
    refine ⟨n + 1, s', ?_, ?_, ?_, ?_⟩
    · rw [hgo, hs₁]
      exact hrun
    · rw [hw', hworld]
      rfl
    · rw [herrand, setErrand_setErrand]
      rfl
    · rw [hlive, hworld]
      rfl

/-- An operation that is started, and carried out with nobody between. -/
theorem run_inARow {o : Order} {op : Operation} (hfree : s.isFree t = true)
    (ho : s.operation o = some op)
    (hp : (op.program s.world.edition).IsUnhindered t s.world) :
    ∃ n s', run (Move.inARow t o n) s = .ok s' ∧
      s'.world = ((op.program s.world.edition).run t s.world).2 ∧ s'.errand = s.errand ∧
      s'.live = s.liveAfter o
        ++ holdingsOf ⟨s.calls, op⟩ ((op.program s.world.edition).run t s.world).1 := by
  have hstart : s.step (.start t o) = .ok (s.start t o) := by
    simp only [step, hfree, if_true]
  have heq : s.start t o = { s with
      calls := s.calls + 1, live := s.liveAfter o
    }.setErrand t (some ⟨⟨s.calls, op⟩, op.program s.world.edition⟩) := by
    simp only [start, ho]
  have he : (s.start t o).errand t = some ⟨⟨s.calls, op⟩, op.program s.world.edition⟩ := by
    rw [heq]
    exact if_pos rfl
  have hworld : (s.start t o).world = s.world := by
    rw [heq]
    rfl
  replace hp : (op.program s.world.edition).IsUnhindered t (s.start t o).world := by
    rw [hworld]
    exact hp
  obtain ⟨n, s', hrun, hw', herrand, hlive⟩ := run_replicate_go he hp
  refine ⟨n, s', (run_cons hstart).trans hrun, ?_, ?_, ?_⟩
  · rw [hw', hworld]
  · rw [herrand, heq, setErrand_setErrand]
    funext t'
    show (if t' = t then none else s.errand t') = s.errand t'
    split
    · rename_i ht
      rw [ht, errand_of_isFree hfree]
    · rfl
  · rw [hlive, hworld, heq]
    rfl

end Workshop

end CallbackLocks
