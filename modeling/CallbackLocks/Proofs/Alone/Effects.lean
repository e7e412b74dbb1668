import CallbackLocks.Proofs.Alone.Calls
import CallbackLocks.Proofs.Concert.Sessions

/-!
# Operations that nobody comes between

What an operation comes to when its thread makes all of its accesses in a row, as far as the table
and the registries are concerned.

* `World.stock`      what is left of a state if queues, the trace and the lifecycle lock are
                     forgotten
* `Program.Yields`   a program leads to a result and to a stock
* `Lifecycle.install_yields`, `Handle.release_yields`   what single calls come to
* `Operation.effect`   what an operation comes to
* `Operation.stock_run`   **it comes to that**
-/

namespace CallbackLocks

open Program

/-! ## tables and registries -/

namespace World

variable {w : World} {r : Registry}

/-- What is left of a state if queues, the trace and the lifecycle lock are forgotten. -/
def stock (w : World) : World :=
  { w with lifecycle := none, queues := fun _ => .empty, trace := [] }

def setClaimed (w : World) (claimed : Bool) : World := { w with claimed := claimed }

theorem setClaimed_self {w : World} {claimed : Bool} (h : w.claimed = claimed) :
    w.setClaimed claimed = w := by
  rw [setClaimed, ← h]

theorem stock_register (w : World) (r : Registry) (f : Option LockCallback) :
    (w.register r f).stock = w.stock.register r f := by
  show _ = if w.keeps r then _ else _
  unfold register
  split <;> rfl

theorem stock_registerId (w : World) (r : Registry) (f : Option IdCallback) :
    (w.registerId r f).stock = w.stock.registerId r f := by
  show _ = if w.keeps r then _ else _
  unfold registerId
  split <;> rfl

theorem stock_see (w : World) (es : List Event) : (w.see es).stock = w.stock := by
  rw [see_eq]
  rfl

theorem stock_equip (w : World) (r : Registry) : (w.equip r).stock = w.stock.equip r := by
  rw [equip_eq, equip_eq]
  rfl

theorem stock_strip (w : World) (r : Registry) : (w.strip r).stock = w.stock.strip r := by
  rw [strip_eq, strip_eq]
  rfl

/-- what a registry answers that is asked what it holds -/
def holds (w : World) (r : Registry) : Slots := ⟨w.locking r, w.idCallback r⟩

theorem holds_register (w : World) (r r' : Registry) (f : Option LockCallback) :
    (w.register r f).holds r' =
      if r' = r ∧ w.keeps r = true then { w.holds r with locking := f } else w.holds r' := by
  unfold register
  split
  · rename_i hk
    have hk' : ∀ s, (w.setSlots r s).keeps r' = w.keeps r' := fun s => by cases r' <;> rfl
    simp only [holds, locking, idCallback, hk', slots_setSlots, hk, and_true]
    by_cases hr : r' = r
    · subst hr
      simp [hk]
    · simp [hr]
  · rename_i hk
    rw [if_neg fun h => hk h.2]

theorem holds_registerId (w : World) (r r' : Registry) (f : Option IdCallback) :
    (w.registerId r f).holds r' =
      if r' = r ∧ w.keeps r = true then { w.holds r with id := f } else w.holds r' := by
  unfold registerId
  split
  · rename_i hk
    have hk' : ∀ s, (w.setSlots r s).keeps r' = w.keeps r' := fun s => by cases r' <;> rfl
    simp only [holds, locking, idCallback, hk', slots_setSlots, hk, and_true]
    by_cases hr : r' = r
    · subst hr
      simp [hk]
    · simp [hr]
  · rename_i hk
    rw [if_neg fun h => hk h.2]

theorem keeps_registerId (w : World) (r r' : Registry) (f : Option IdCallback) :
    (w.registerId r f).keeps r' = w.keeps r' := by
  obtain ⟨s, hs, -⟩ := w.registerId_eq r f
  rw [hs]
  cases r' <;> rfl

theorem holds_of_not_keeps (h : ¬ w.keeps r = true) : w.holds r = .empty := by
  rw [holds, locking, idCallback, if_neg h, if_neg h]
  rfl

theorem holds_register_registerId (w : World) (r r' : Registry) (f : Option LockCallback)
    (g : Option IdCallback) : ((w.registerId r g).register r f).holds r' =
      if r' = r ∧ w.keeps r = true then ⟨f, g⟩ else w.holds r' := by
  rw [holds_register, keeps_registerId, holds_registerId, holds_registerId]
  by_cases h : r' = r ∧ w.keeps r = true
  · rw [if_pos h, if_pos h, if_pos ⟨rfl, h.2⟩]
  · rw [if_neg h, if_neg h, if_neg h]

theorem holds_equip (w : World) (r r' : Registry) : (w.equip r).holds r' =
    if r' = r ∧ w.keeps r = true then ⟨some .own, some .own⟩ else w.holds r' :=
  holds_register_registerId { w with table := some (.new (w.lockCount r)) } r r' _ _

theorem holds_strip (w : World) (r r' : Registry) :
    (w.strip r).holds r' = if r' = r then .empty else w.holds r' := by
  refine (holds_register_registerId w r r' none none).trans ?_
  by_cases hr : r' = r
  · subst hr
    rw [if_pos rfl]
    split
    · rfl
    · rename_i hk
      exact holds_of_not_keeps fun h => hk ⟨rfl, h⟩
  · rw [if_neg fun h => hr h.1, if_neg hr]

instance (w : World) (r : Registry) : Decidable (w.IsVacant r) :=
  decidable_of_iff (w.table = none ∧ w.locking r = none ∧ w.lockCount r < Lifecycle.maxLocks)
    ⟨fun h => ⟨h.1, h.2.1, h.2.2⟩, fun h => ⟨h.table, h.locking, h.count⟩⟩

end World

/-- What an access does to the state but for queues, the trace and the lifecycle lock. -/
def Access.effect (w : World) : Access → World
  | publishTable size => { w with table := some (.new size) }
  | withdrawTable => { w with table := none }
  | countInstall => { w with generation := w.generation + 1 }
  | claim => w.setClaimed true
  | unclaim => w.setClaimed false
  | setLocking r f => w.register r f
  | setId r f => w.registerId r f
  | _ => w

theorem World.stock_perform (a : Access) (who : Thread) (w : World) :
    (a.perform who w).2.stock = a.effect w.stock := by
  cases a with
  | setLocking r f => exact w.stock_register r f
  | setId r f => exact w.stock_registerId r f
  | _ => rfl

/-! ## what programs come to -/

/-- Made by `who` from `w` on with nobody between, the accesses lead to that result, and to the
stock of `v`. -/
def Program.Yields {α : Type} (p : Program α) (who : Thread) (w : World) (x : Except Abandoned α)
    (v : World) : Prop :=
  ∃ w', p.run who w = (x, w') ∧ w'.stock = v.stock

section
variable {α β : Type} {p : Program α} {f : α → Program β} {who : Thread} {w v u : World}
  {r : Registry}

theorem Program.Yields.done {x : α} (h : w.stock = v.stock) :
    (Program.done x).Yields who w (.ok x) v := ⟨w, rfl, h⟩

theorem Program.Yields.bind {x : α} {y : Except Abandoned β} (hp : p.Yields who w (.ok x) v)
    (hf : ∀ w', w'.stock = v.stock → (f x).Yields who w' y u) : (p.bind f).Yields who w y u := by
  obtain ⟨w', hrun, hw'⟩ := hp
  obtain ⟨w'', hrun', hw''⟩ := hf w' hw'
  refine ⟨w'', ?_, hw''⟩
  rw [run_bind, hrun]
  exact hrun'

theorem Program.Yields.bind_error {e : Abandoned} (hp : p.Yields who w (.error e) v) :
    (p.bind f).Yields who w (.error e) v := by
  obtain ⟨w', hrun, hw'⟩ := hp
  refine ⟨w', ?_, hw'⟩
  rw [run_bind, hrun]

/-- An access of which nothing shows but in queues, the trace and the lifecycle lock. -/
theorem Program.Yields.skip {a : Access} {next : a.Reply → Program α} {x : Except Abandoned α}
    (ha : a.effect w.stock = w.stock)
    (h : ∀ w', w'.stock = w.stock → (next (a.perform who w).1).Yields who w' x v) :
    (step a next).Yields who w x v :=
  h _ ((w.stock_perform a who).trans ha)

namespace World

theorem eq_of_stock {γ : Type} (f : World → γ) (hf : ∀ w, f w.stock = f w)
    (h : w.stock = v.stock) : f w = f v :=
  (hf w).symm.trans ((congrArg f h).trans (hf v))

theorem isVacant_of_stock (h : w.stock = v.stock) : w.IsVacant r ↔ v.IsVacant r := by
  rw [eq_of_stock (World.IsVacant · r) (fun w => ?_) h]
  exact propext ⟨fun h => ⟨h.table, h.locking, h.count⟩, fun h => ⟨h.table, h.locking, h.count⟩⟩

theorem equip_of_stock (h : w.stock = v.stock) : (w.equip r).stock = (v.equip r).stock := by
  rw [stock_equip, stock_equip, h]

theorem strip_of_stock (h : w.stock = v.stock) : (w.strip r).stock = (v.strip r).stock := by
  rw [stock_strip, stock_strip, h]

end World

namespace Lifecycle

/-- A call that finds neither a table nor a callback makes a table and registers our callbacks. -/
theorem install_yields (h : w.IsVacant r) (who : Thread) :
    (install r).Yields who w (.ok (some (w.generation + 1))) (w.equip r) := by
  refine ⟨_, run_install_of_vacant h who, ?_⟩
  rw [World.stock_see, World.stock_equip, World.stock_equip]
  rfl

theorem install_yields_nothing (h : ¬ w.IsVacant r) (who : Thread) :
    (install r).Yields who w (.ok none) w ∨ ¬ w.lockCount r < maxLocks ∧
      (install r).Yields who w (.error .capacityOverflow) w := by
  cases htable : w.table with
  | some table => exact .inl ⟨_, run_install_of_table htable who, World.stock_see _ _⟩
  | none =>
    cases hlocking : w.locking r with
    | some f => exact .inl ⟨_, run_install_of_callback htable hlocking who, World.stock_see _ _⟩
    | none =>
      have hcount : ¬ w.lockCount r < maxLocks := fun hlt => h ⟨htable, hlocking, hlt⟩
      exact .inr ⟨hcount, _, run_install_of_count htable hlocking hcount who, World.stock_see _ _⟩

theorem teardown_yields (r : Registry) (who : Thread) (w : World) :
    (teardown r).Yields who w (.ok ()) (if w.isInstalled then w.strip r else w) := by
  refine ⟨_, run_teardown r who w, (World.stock_see _ _).trans ?_⟩
  split
  · rw [← World.freed_strip]
    rfl
  · rfl

end Lifecycle

namespace Handle

theorem effect_of_stock {h : Handle} (hw : w.stock = v.stock) :
    (h.effect w).stock = (h.effect v).stock := by
  unfold effect
  rw [World.eq_of_stock h.isCurrent (fun _ => rfl) hw]
  split
  · exact World.strip_of_stock hw
  · exact hw

theorem release_yields (h : Handle) (who : Thread) (w : World) :
    h.release.Yields who w (.ok ⟨h.registry, none⟩) (h.effect w) := by
  obtain ⟨r, g⟩ := h
  cases g with
  | none => exact Yields.done rfl
  | some g =>
    refine Yields.bind ⟨_, run_removeIfCurrent r g who w, ?_⟩ fun _ hw => Yields.done hw
    exact (World.stock_see _ _).trans (effect_of_stock rfl)

theorem drop_yields (h : Handle) (who : Thread) (w : World) :
    h.drop.Yields who w (.ok ()) (h.effect w) :=
  (h.release_yields who w).bind fun _ hw => Yields.done hw

theorem stock_inquiry (h : Handle) (who : Thread) (w : World) :
    (h.inquiry.run who w).2.stock = w.stock := by
  cases hg : h.generation with
  | none => rw [inquiry_of_none hg, run_done]
  | some g =>
    rw [inquiry_of_some hg]
    show ((look (w.generation = g)).run who w.freed).2.stock = _
    by_cases hsame : w.generation = g
    · rw [look_of_same hsame]
      rfl
    · rw [look_of_not_same hsame]
      rfl

theorem install_yields (h : w.IsVacant r) (who : Thread) :
    (install r).Yields who w (.ok ⟨r, some (w.generation + 1)⟩) (w.equip r) :=
  (Lifecycle.install_yields h who).bind fun _ hw => Yields.done hw

end Handle

/-! ## sessions -/

/-- What bringing the host library up comes to, and whether it is up then. -/
def World.bringUp (w : World) : World × Bool :=
  if w.edition = .legacy ∧ w.startCode ≠ 1 then (w, false)
  else if w.seeded then (if w.IsVacant .host then w.equip .host else w, true)
  else (if w.IsVacant .host then (w.equip .host).strip .host else w, false)

theorem World.claimed_bringUp (w : World) : w.bringUp.1.claimed = w.claimed := by
  unfold bringUp
  split
  · rfl
  · split
    · show World.claimed (if _ then _ else _) = _
      split
      · rw [equip_eq]
      · rfl
    · show World.claimed (if _ then _ else _) = _
      split
      · rw [strip_eq, equip_eq]
      · rfl

/-- what a call that begins a session comes to -/
def World.beginSession (w : World) : World :=
  if w.claimed then w
  else (w.setClaimed true).bringUp.1.setClaimed (w.setClaimed true).bringUp.2

namespace Session

theorem start_yields {e : Edition} (he : w.edition = e) (who : Thread) :
    (¬ (w.edition = .legacy ∧ w.startCode ≠ 1) ∧ (start e).Yields who w (.ok (.ok ())) w) ∨
    (w.edition = .legacy ∧ w.startCode ≠ 1) ∧
      ∃ f, (start e).Yields who w (.ok (.error f)) w := by
  cases e with
  | modern =>
    refine .inl ⟨fun h => (nomatch he.symm.trans h.1), ?_⟩
    simp only [start, access_eq, bind_eq, bind_step, bind_done, pure_eq]
    exact Yields.skip rfl fun _ h₁ => Yields.done h₁
  | legacy =>
    simp only [start, access_eq, bind_eq, bind_step, bind_done, pure_eq]
    by_cases hcode : w.startCode = 1
    · refine .inl ⟨fun h => h.2 hcode, Yields.skip rfl fun w₁ h₁ => ?_⟩
      show (if w.startCode = 1 then _ else _ : Program _).Yields _ _ _ _
      rw [if_pos hcode]
      exact Yields.skip rfl fun w₂ h₂ => Yields.done (h₂.trans h₁)
    · refine .inr ⟨⟨he, hcode⟩, .refused ((Access.startHost.perform who w).2.queues who).drain.1,
        _, ?_, (rfl : World.stock (Access.drainErrors.perform who
          (Access.startHost.perform who w).2).2 = w.stock)⟩
      rw [run_step]
      show (if w.startCode = 1 then _ else _ : Program _).run _ _ = _
      rw [if_neg hcode]
      rfl

theorem cleanUp_yields (e : Edition) (who : Thread) (w : World) :
    (cleanUp e).Yields who w (.ok ()) w :=
  ⟨_, run_cleanUp e who w, World.stock_see _ _⟩

theorem seed_yields (who : Thread) (w : World) :
    seed.Yields who w (.ok (if w.seeded then .ok () else .error .noEntropy)) w := by
  refine Yields.skip rfl fun w₁ h₁ => ?_
  show (if w.seeded then _ else _ : Program _).Yields _ _ _ _
  split
  · exact Yields.skip rfl fun w₂ h₂ => Yields.done (h₂.trans h₁)
  · exact Yields.done h₁

theorem handle_yields (who : Thread) (w : World) : (Handle.install .host).Yields who w
    (.ok ⟨.host, if w.IsVacant .host then some (w.generation + 1) else none⟩)
    (if w.IsVacant .host then w.equip .host else w) := by
  by_cases hv : w.IsVacant .host
  · rw [if_pos hv, if_pos hv]
    exact Handle.install_yields hv who
  · rw [if_neg hv, if_neg hv]
    rcases Lifecycle.install_yields_nothing hv who with h | ⟨h, -⟩
    · exact h.bind fun _ hw => Yields.done hw
    · exact absurd w.lockCount_host h

theorem effect_handle (w : World) :
    Handle.effect ⟨.host, if w.IsVacant .host then some (w.generation + 1) else none⟩
      (if w.IsVacant .host then w.equip .host else w) =
    if w.IsVacant .host then (w.equip .host).strip .host else w := by
  split
  · rw [Handle.effect, Handle.isCurrent, World.equip_eq]
    simp [World.isInstalled]
  · rfl

theorem bringUp_yields {e : Edition} (he : w.edition = e) (who : Thread) :
    ∃ x, (bringUp e).Yields who w (.ok x) w.bringUp.1 ∧ x.isOk = w.bringUp.2 := by
  unfold World.bringUp
  rcases start_yields he who with ⟨hup, hstart⟩ | ⟨hdown, f, hstart⟩
  · rw [if_neg hup]
    let h : Handle := ⟨.host, if w.IsVacant .host then some (w.generation + 1) else none⟩
    let v : World := if w.IsVacant .host then w.equip .host else w
    have hinstall : ∀ w₁, w₁.stock = w.stock →
        (Handle.install .host).Yields who w₁ (.ok h) v := by
      intro w₁ h₁
      have hgen := World.eq_of_stock World.generation (fun _ => rfl) h₁
      obtain ⟨w₂, hrun, h₂⟩ := handle_yields who w₁
      simp only [World.isVacant_of_stock h₁, hgen] at hrun h₂
      refine ⟨w₂, hrun, h₂.trans ?_⟩
      show _ = World.stock (if _ then _ else _)
      split
      · exact World.equip_of_stock h₁
      · exact h₁
    have hseeded : ∀ w₂ : World, w₂.stock = v.stock → w₂.seeded = w.seeded := by
      intro w₂ h₂
      rw [World.eq_of_stock World.seeded (fun _ => rfl) h₂]
      show World.seeded (if _ then _ else _) = _
      split
      · rw [World.equip_eq]
      · rfl
    cases hs : w.seeded with
    | true =>
      refine ⟨.ok h, hstart.bind fun w₁ h₁ => (hinstall w₁ h₁).bind fun w₂ h₂ => ?_, rfl⟩
      refine (seed_yields who w₂).bind fun w₃ h₃ => ?_
      rw [hseeded w₂ h₂, hs]
      exact Yields.done (h₃.trans h₂)
    | false =>
      refine ⟨.error .noEntropy, hstart.bind fun w₁ h₁ => (hinstall w₁ h₁).bind fun w₂ h₂ => ?_,
        rfl⟩
      refine (seed_yields who w₂).bind fun w₃ h₃ => ?_
      rw [hseeded w₂ h₂, hs]
      refine (cleanUp_yields e who w₃).bind fun w₄ h₄ => (h.drop_yields who w₄).bind fun w₅ h₅ => ?_
      refine Yields.done (h₅.trans ?_)
      rw [if_neg Bool.false_ne_true, ← effect_handle]
      exact Handle.effect_of_stock ((h₄.trans h₃).trans h₂)
  · rw [if_pos hdown]
    exact ⟨.error f, hstart.bind fun _ hw => Yields.done hw, rfl⟩

theorem begin_yields {e : Edition} (he : w.edition = e) (who : Thread) :
    ∃ x, (begin e).Yields who w (.ok x) w.beginSession ∧
      x.isOk = (!w.claimed && (w.setClaimed true).bringUp.2) := by
  simp only [begin, Lifecycle.log, access_eq, bind_eq, bind_step, bind_done, pure_eq]
  unfold World.beginSession
  cases hc : w.claimed with
  | true =>
    refine ⟨.error .alreadyInitialized, ⟨w.setClaimed true, ?_, ?_⟩, rfl⟩
    · show (if !w.claimed then _ else _ : Program _).run _ _ = _
      rw [hc]
      rfl
    · rw [if_pos rfl, World.setClaimed_self hc]
  | false =>
    rw [if_neg Bool.false_ne_true]
    have hstep : ∀ {α : Type} {next : Bool → Program α} {y : Except Abandoned α} {v : World},
        (next true).Yields who (w.setClaimed true) y v → (step .claim next).Yields who w y v := by
      intro α next y v h
      show (next !w.claimed).Yields _ _ _ _
      rwa [hc]
    have hclaimed := (w.setClaimed true).claimed_bringUp
    obtain ⟨x, hup, hx⟩ := bringUp_yields (w := w.setClaimed true) he who
    generalize (w.setClaimed true).bringUp = brought at hup hx hclaimed ⊢
    obtain ⟨v, up⟩ := brought
    obtain rfl : x.isOk = up := hx
    cases x with
    | ok h =>
      refine ⟨.ok ⟨h⟩, hstep (hup.bind fun w₁ h₁ => ?_), rfl⟩
      refine Yields.skip rfl fun w₂ h₂ => Yields.done ((h₂.trans h₁).trans ?_)
      exact congrArg World.stock (World.setClaimed_self hclaimed).symm
    | error f =>
      refine ⟨.error f, hstep (hup.bind fun w₁ h₁ => ⟨_, rfl, ?_⟩), rfl⟩
      exact congrArg (World.setClaimed · false) h₁

theorem finish_yields (x : Session) (e : Edition) (who : Thread) (w : World) :
    (x.finish e).Yields who w (.ok ()) ((x.handle.effect w).setClaimed false) := by
  refine (cleanUp_yields e who w).bind fun w₁ h₁ => ?_
  refine (x.handle.release_yields who w₁).bind fun w₂ h₂ => ?_
  simp only [Lifecycle.log, access_eq, bind_eq, bind_step, bind_done]
  refine ⟨_, rfl, ?_⟩
  simp only [World.stock_perform, Access.effect, h₂, Handle.effect_of_stock h₁]
  rfl

end Session

/-! ## operations -/

namespace Operation

def effect (w : World) : Operation → World
  | install r | newHandle r => if w.IsVacant r then w.equip r else w
  | teardown r => if w.isInstalled then w.strip r else w
  | drop h | uninstall h => h.effect w
  | ask _ => w
  | beginSession => w.beginSession
  | finishSession x => (x.handle.effect w).setClaimed false

/-- **An operation that nobody comes between comes to its effect.** -/
theorem stock_run (op : Operation) (who : Thread) (w : World) :
    ((op.program w.edition).run who w).2.stock = (op.effect w).stock := by
  have hof : ∀ {p : Program Prize} {w x v}, p.Yields who w x v →
      (p.run who w).2.stock = v.stock := fun ⟨w', hrun, hw'⟩ => by rw [hrun]; exact hw'
  -- what is made of the result of a call of install plays no part
  have hinstall : ∀ (r : Registry) (f : Option Nat → Program Prize),
      (∀ g v, ∃ x, (f g).Yields who v x v) →
      (((Lifecycle.install r).bind f).run who w).2.stock
        = World.stock (if w.IsVacant r then w.equip r else w) := by
    intro r f hf
    by_cases hv : w.IsVacant r
    · obtain ⟨w', hrun, hw'⟩ := Lifecycle.install_yields hv who
      obtain ⟨x, hx⟩ := hf (some (w.generation + 1)) w'
      rw [if_pos hv, run_bind, hrun]
      exact (hof hx).trans hw'
    · rw [if_neg hv]
      rcases Lifecycle.install_yields_nothing hv who with ⟨w', hrun, hw'⟩ | ⟨-, h⟩
      · obtain ⟨x, hx⟩ := hf none w'
        rw [run_bind, hrun]
        exact (hof hx).trans hw'
      · exact hof h.bind_error
  cases op with
  | install r => exact hinstall r _ fun _ _ => ⟨_, Yields.done rfl⟩
  | newHandle r =>
    show (((Handle.install r).bind _).run who w).2.stock = _
    rw [Handle.install, bind_eq, Program.bind_assoc]
    exact hinstall r _ fun _ _ => ⟨_, Yields.done rfl⟩
  | teardown r => exact hof ((Lifecycle.teardown_yields r who w).bind fun _ hw => Yields.done hw)
  | drop h => exact hof ((h.drop_yields who w).bind fun _ hw => Yields.done hw)
  | uninstall h =>
    have hd := h.drop_yields who w
    rw [← h.uninstall_eq_drop] at hd
    exact hof (hd.bind fun _ hw => Yields.done hw)
  | ask h => exact h.stock_inquiry who w
  | beginSession =>
    obtain ⟨x, hx, -⟩ := Session.begin_yields (rfl : w.edition = w.edition) who
    cases x with
    | ok x => exact hof (hx.bind fun _ hw => Yields.done hw)
    | error f => exact hof (hx.bind fun _ hw => Yields.done hw)
  | finishSession x =>
    exact hof ((x.finish_yields w.edition who w).bind fun _ hw => Yields.done hw)

end Operation

end

end CallbackLocks
