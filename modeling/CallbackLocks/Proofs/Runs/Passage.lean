import CallbackLocks.Proofs.Concert.Sessions
import CallbackLocks.Proofs.Runs.Ledger

/-!
# Tables that are on their way

A table is there before our callback is registered, and it is still there when the callback has been
cleared.  In between it is on its way, and then its thread has the lifecycle lock.

* `Operation.along_of_tables`   whoever watches for tables sees of an operation only the parts that
                     make or remove one
* `Watch.passage`    whether a table is on its way
* `Operation.passage_along`   **no operation gives the lifecycle lock back, or ends, while its table
                     is on its way**
-/

namespace CallbackLocks

open Program

/-! ## watching for tables -/

section
variable {σ : Type} {m : Watch σ} {b : σ}

/-- What is watched is as it was after every operation, if it is after all that is done about
tables. -/
theorem Operation.along_of_tables (hs : ∀ a, a.isOfSession = true → m.Ignores b a)
    (hinstall : ∀ r, (Lifecycle.install r).Along m (fun b' _ => b' = b) b)
    (hteardown : ∀ r, (Lifecycle.teardown r).Along m (fun b' _ => b' = b) b)
    (hremove : ∀ r g, (Lifecycle.removeIfCurrent r g).Along m (fun b' _ => b' = b) b)
    (hask : ∀ h : Handle, h.inquiry.Along m (fun b' _ => b' = b) b) (e : Edition) (op : Operation) :
    (op.program e).Along m (fun b' _ => b' = b) b := by
  have hhost : ∀ a, a.isOfHost = true → m.Ignores b a := by
    intro a ha
    refine hs a ?_
    cases a with
    | log l =>
      cases l with
      | seeded => rfl
      | _ => exact nomatch ha
    | initHost | startHost | loadErrorStrings | drainErrors | readSeeded => rfl
    | cleanAlgorithms | cleanExtraData | freeErrorStrings => rfl
    | _ => exact nomatch ha
  have hrelease : ∀ h : Handle,
      h.release.Along m (fun b' h' => b' = b ∧ h'.generation = none) b := by
    rintro ⟨r, g⟩
    cases g with
    | none => exact ⟨rfl, rfl⟩
    | some g => exact (hremove r g).bind fun _ _ hb => ⟨hb, rfl⟩
  have hdrop : ∀ h : Handle, h.drop.Along m (fun b' _ => b' = b) b :=
    fun h => (hrelease h).bind fun _ _ hb => hb.1
  cases op with
  | install r => exact (hinstall r).bind fun _ _ hb => hb
  | teardown r => exact (hteardown r).bind fun _ _ hb => hb
  | newHandle r =>
    have hhandle : (Handle.install r).Along m (fun b' _ => b' = b) b :=
      (hinstall r).bind fun _ _ hb => hb
    exact hhandle.bind fun _ _ hb => hb
  | drop h => exact (hdrop h).bind fun _ _ hb => hb
  | uninstall h =>
    have hd := hdrop h
    rw [← h.uninstall_eq_drop] at hd
    exact hd.bind fun _ _ hb => hb
  | ask h => exact hask h
  | beginSession =>
    have hbegin : (Session.begin e).Along m (fun b' _ => b' = b) b := by
      refine Along.skip (hs _ rfl) fun who w => ?_
      show (if (Access.claim.perform who w).1 then _ else _ : Program _).Along _ _ _
      split
      · refine (Session.bringUp_along hhost (hinstall .host) (fun _ => hdrop _) e).bind
          fun b' up hb => ?_
        rw [hb]
        cases up with
        | ok handle => exact Along.skip (hs _ rfl) fun _ _ => rfl
        | error f => exact Along.skip (hs _ rfl) fun _ _ => rfl
      · exact rfl
    refine hbegin.bind fun b' begun hb => ?_
    cases begun with
    | ok x => exact hb
    | error f => exact hb
  | finishSession x =>
    have hfinish : (x.finish e).Along m (fun b' _ => b' = b) b := by
      refine (Session.cleanUp_along hhost e).bind fun b' _ hb => ?_
      rw [hb]
      refine (hrelease x.handle).bind fun b' ⟨r, g⟩ ⟨hb, hg⟩ => ?_
      obtain rfl : g = none := hg
      rw [hb]
      refine Along.skip (hs _ rfl) fun _ _ => ?_
      exact Along.skip (hs _ rfl) fun _ _ => rfl
    exact hfinish.bind fun _ _ hb => hb

end

/-! ## tables that come and go -/

/-- A table is on its way from when it is there to when our callback is registered, and from when
callbacks are cleared to when it is gone. -/
def Watch.passage : Watch Bool where
  allows := fun b a => match a with
    | .freeLifecycle => b = false
    | _ => True
  leads := fun b a _ b' => match a with
    | .publishTable _ | .setLocking _ none => b' = true
    | .setLocking _ (some _) | .withdrawTable => b' = false
    | _ => b' = b
  quits := fun b => b = false

def Access.isOfPassage : Access → Bool
  | publishTable _ | setLocking _ _ | withdrawTable => true
  | _ => false

section
variable {b : Bool} {a : Access}

theorem Watch.leads_passage (h : a.isOfPassage = false) {w : World} {b' : Bool}
    (hl : passage.leads b a w b') : b' = b := by
  cases a with
  | publishTable | setLocking | withdrawTable => exact nomatch h
  | _ => exact hl

theorem Watch.ignores_passage (h : a.isOfPassage = false) (hlife : a.isOnLifecycle = false) :
    passage.Ignores b a := by
  refine ⟨?_, fun _ _ => leads_passage h⟩
  cases a with
  | freeLifecycle => exact nomatch hlife
  | _ => trivial

theorem Watch.ignores_passage_take : passage.Ignores b .takeLifecycle :=
  ⟨trivial, fun _ _ hb => hb⟩

theorem Watch.ignores_passage_free : passage.Ignores false .freeLifecycle :=
  ⟨rfl, fun _ _ hb => hb⟩

theorem Watch.exists_passage (b : Bool) (a : Access) (w : World) :
    ∃ b', passage.leads b a w b' := by
  cases a with
  | setLocking r f => cases f <;> exact ⟨_, rfl⟩
  | _ => exact ⟨_, rfl⟩

namespace Lifecycle

theorem install_passage (r : Registry) :
    (install r).Along .passage (fun b _ => b = false) false := by
  simp only [install, log, access_eq, bind_eq, bind_step, bind_done, pure_eq]
  have hleave : ∀ line, (step (.log line) fun _ => step .freeLifecycle fun _ =>
      done (none : Option Nat)).Along .passage (fun b _ => b = false) false :=
    fun _ => Along.skip (Watch.ignores_passage rfl rfl) fun _ _ =>
      Along.skip Watch.ignores_passage_free fun _ _ => rfl
  refine Along.skip Watch.ignores_passage_take fun _ _ => ?_
  refine Along.skip (Watch.ignores_passage rfl rfl) fun who w => ?_
  cases (Access.loadTable.perform who w).1 with
  | some size => exact hleave _
  | none =>
    refine Along.skip (Watch.ignores_passage rfl rfl) fun who w => ?_
    cases (Access.readLocking r).perform who w |>.1 with
    | some f => exact hleave _
    | none =>
      refine Along.skip (Watch.ignores_passage rfl rfl) fun who w => ?_
      show (if w.lockCount r < maxLocks then _ else _ : Program (Option Nat)).Along _ _ _
      split
      · refine ⟨trivial, fun _ _ b hb => ?_⟩
        obtain rfl : b = true := hb
        refine Along.skip (Watch.ignores_passage rfl rfl) fun _ _ => ?_
        refine ⟨trivial, fun _ _ b hb => ?_⟩
        obtain rfl : b = false := hb
        refine Along.skip (Watch.ignores_passage rfl rfl) fun _ _ => ?_
        refine Along.skip (Watch.ignores_passage rfl rfl) fun _ _ => ?_
        refine Along.skip (Watch.ignores_passage rfl rfl) fun _ _ => ?_
        exact Along.skip Watch.ignores_passage_free fun _ _ => rfl
      · exact Along.skip Watch.ignores_passage_free fun _ _ => rfl

theorem remove_passage (r : Registry) :
    (remove r).Along .passage (fun b _ => b = false) false := by
  simp only [remove, log, access_eq, bind_eq, bind_step, bind_done]
  refine Along.skip (Watch.ignores_passage rfl rfl) fun who w => ?_
  cases (Access.loadTable.perform who w).1 with
  | none => exact Along.skip (Watch.ignores_passage rfl rfl) fun _ _ => rfl
  | some size =>
    refine Along.skip (Watch.ignores_passage rfl rfl) fun _ _ => ?_
    refine ⟨trivial, fun _ _ b hb => ?_⟩
    obtain rfl : b = true := hb
    refine ⟨trivial, fun _ _ b hb => ?_⟩
    obtain rfl : b = false := hb
    exact Along.skip (Watch.ignores_passage rfl rfl) fun _ _ => rfl

/-- The lock is given back when no table is on its way. -/
theorem freed_passage (b : Bool) (_ : Unit) (hb : b = false) :
    (access .freeLifecycle).Along .passage (fun b _ => b = false) b := by
  rw [hb]
  exact Along.skip Watch.ignores_passage_free fun _ _ => rfl

theorem teardown_passage (r : Registry) :
    (teardown r).Along .passage (fun b _ => b = false) false :=
  Along.skip Watch.ignores_passage_take fun _ _ => (remove_passage r).bind freed_passage

theorem removeIfCurrent_passage (r : Registry) (g : Nat) :
    (removeIfCurrent r g).Along .passage (fun b _ => b = false) false := by
  have hcurrent : (isCurrent g).Along .passage (fun b _ => b = false) false := by
    refine Along.skip (Watch.ignores_passage rfl rfl) fun _ w => ?_
    show (if w.generation = g then _ else _ : Program Bool).Along _ _ _
    split
    · exact Along.skip (Watch.ignores_passage rfl rfl) fun _ _ => rfl
    · exact rfl
  refine Along.skip Watch.ignores_passage_take fun _ _ => ?_
  refine hcurrent.bind fun b current hb => ?_
  rw [hb]
  cases current with
  | true => exact (remove_passage r).bind freed_passage
  | false => exact Along.skip (Watch.ignores_passage rfl rfl) fun _ _ => freed_passage false () rfl

end Lifecycle

theorem Operation.passage_along (e : Edition) (op : Operation) :
    (op.program e).Along .passage (fun b _ => b = false) false := by
  have hask : ∀ a, a.isOfInquiry = true → Watch.passage.Ignores false a := by
    intro a ha
    cases a with
    | takeLifecycle => exact Watch.ignores_passage_take
    | freeLifecycle => exact Watch.ignores_passage_free
    | readGeneration | loadTable => exact Watch.ignores_passage rfl rfl
    | _ => exact nomatch ha
  refine op.along_of_tables (fun a ha => ?_) Lifecycle.install_passage Lifecycle.teardown_passage
    Lifecycle.removeIfCurrent_passage
    (fun h => (h.inquiry_along hask).mono fun _ _ hb => hb.1) e
  cases a with
  | takeLifecycle | freeLifecycle | publishTable | setLocking | withdrawTable => exact nomatch ha
  | _ => exact Watch.ignores_passage rfl rfl

end

end CallbackLocks
