import Mathlib
import CallbackLocks.Proofs.Alone.Effects

/-!
# Callbacks of other parties

Other parties register callbacks of their own.  An operation that makes a table has looked at the
locking slot, and at that slot only; one that removes the table by name clears both slots of the
registry that it names, whoever filled them.  A handle takes back what its own call has registered.
What it may do at a registry where another party has put a callback since is not said here.

* `World.HasForeign`   another party has a callback at the registry
* `Operation.Makes`, `RemovesByName`, `GivesUp`   the operation makes a table for a registry, or
                     removes the one that is installed in the name of a registry, or is the end of
                     the handle that made it
* `Operation.holds_effect`   any other operation leaves what the registry holds
* `Operation.foreign_callbacks_stay`   **what becomes of the callbacks of other parties**
-/

namespace CallbackLocks

/-- Another party has a callback at the registry. -/
def World.HasForeign (w : World) (r : Registry) : Prop :=
  (∃ k, w.locking r = some (.foreign k)) ∨ w.idCallback r = some .foreign

namespace Operation

/-- The operation makes a table for `r`. -/
def Makes (w : World) (r : Registry) : Operation → Prop
  | install r' | newHandle r' => r' = r ∧ w.IsVacant r
  | beginSession => r = .host ∧ w.IsVacant .host ∧ w.claimed = false ∧
      ¬ (w.edition = .legacy ∧ w.startCode ≠ 1)
  | teardown _ | drop _ | uninstall _ | ask _ | finishSession _ => False

/-- What an operation that makes a table leaves in the slots: our callbacks, unless it is a session
that has to be undone for want of entropy. -/
def made (w : World) : Operation → Slots
  | beginSession => if w.seeded then ⟨some .own, some .own⟩ else .empty
  | _ => ⟨some .own, some .own⟩

/-- The operation removes the table that is installed, whoever made it, in the name of `r`. -/
def RemovesByName (w : World) (r : Registry) : Operation → Prop
  | teardown r' => r' = r ∧ w.isInstalled = true
  | install _ | newHandle _ | drop _ | uninstall _ | ask _ | beginSession | finishSession _ => False

/-- The operation is the end of a handle on `r` whose table is installed. -/
def GivesUp (w : World) (r : Registry) : Operation → Prop
  | drop h | uninstall h => h.registry = r ∧ h.isCurrent w = true
  | finishSession x => x.handle.registry = r ∧ x.handle.isCurrent w = true
  | install _ | newHandle _ | teardown _ | ask _ | beginSession => False

variable {w : World} {r : Registry}

theorem holds_handle_effect {h : Handle} (hr : ¬ (h.registry = r ∧ h.isCurrent w = true)) :
    (h.effect w).holds r = w.holds r := by
  unfold Handle.effect
  split
  · rename_i hc
    rw [World.holds_strip, if_neg fun heq => hr ⟨heq.symm, hc⟩]
  · rfl

theorem holds_bringUp (h : r = .host → w.IsVacant .host → w.edition = .legacy ∧ w.startCode ≠ 1) :
    w.bringUp.1.holds r = w.holds r := by
  unfold World.bringUp
  split
  · rfl
  · rename_i hup
    have hne : w.IsVacant .host → r ≠ .host := fun hv hr => hup (h hr hv)
    split
    · show World.holds (if _ then _ else _) r = _
      split
      · rename_i hv
        rw [World.holds_equip, if_neg fun heq => hne hv heq.1]
      · rfl
    · show World.holds (if _ then _ else _) r = _
      split
      · rename_i hv
        rw [World.holds_strip, if_neg (hne hv), World.holds_equip, if_neg fun heq => hne hv heq.1]
      · rfl

theorem holds_bringUp_of_vacant (hv : w.IsVacant .host)
    (hup : ¬ (w.edition = .legacy ∧ w.startCode ≠ 1)) (hk : w.keeps .host = true) :
    w.bringUp.1.holds .host = beginSession.made w := by
  show _ = if w.seeded then _ else _
  rw [World.bringUp, if_neg hup, if_pos hv, if_pos hv]
  split
  · rw [World.holds_equip, if_pos ⟨rfl, hk⟩]
  · rw [World.holds_strip, if_pos rfl]

/-- An operation leaves what a registry holds that neither makes a table for it, nor removes one in
its name, nor ends the handle on it. -/
theorem holds_effect {op : Operation} (hm : ¬ op.Makes w r) (hn : ¬ op.RemovesByName w r)
    (hg : ¬ op.GivesUp w r) : (op.effect w).holds r = w.holds r := by
  have hmake : ∀ {r' : Registry}, ¬ (r' = r ∧ w.IsVacant r) →
      World.holds (if w.IsVacant r' then w.equip r' else w) r = w.holds r := by
    intro r' hv
    split
    · rename_i hvac
      rw [World.holds_equip, if_neg]
      rintro ⟨rfl, -⟩
      exact hv ⟨rfl, hvac⟩
    · rfl
  cases op with
  | install r' | newHandle r' => exact hmake hm
  | teardown r' =>
    show World.holds (if w.isInstalled then w.strip r' else w) r = _
    split
    · rename_i hin
      rw [World.holds_strip, if_neg fun heq => hn ⟨heq.symm, hin⟩]
    · rfl
  | drop h | uninstall h => exact holds_handle_effect hg
  | finishSession x => exact holds_handle_effect (w := w) hg
  | ask => rfl
  | beginSession =>
    show World.holds w.beginSession r = _
    unfold World.beginSession
    split
    · rfl
    · rename_i hc
      refine holds_bringUp (w := w.setClaimed true) fun hr hv => ?_
      by_contra hup
      exact hm ⟨hr, ⟨hv.table, hv.locking, hv.count⟩, Bool.eq_false_iff.mpr hc, hup⟩

theorem Makes.locking_eq_none {op : Operation} (h : op.Makes w r) : w.locking r = none := by
  cases op with
  | install | newHandle => exact h.2.locking
  | beginSession =>
    rw [h.1]
    exact h.2.1.locking
  | teardown | drop | uninstall | ask | finishSession => exact h.elim

theorem Makes.holds_effect {op : Operation} (h : op.Makes w r) (hk : w.keeps r = true) :
    (op.effect w).holds r = op.made w := by
  cases op with
  | install r' | newHandle r' =>
    obtain ⟨rfl, hv⟩ := h
    rw [effect, if_pos hv, World.holds_equip, if_pos ⟨rfl, hk⟩]
    rfl
  | beginSession =>
    obtain ⟨rfl, hv, hc, hup⟩ := h
    show World.holds w.beginSession .host = _
    rw [World.beginSession, if_neg (Bool.eq_false_iff.mp hc)]
    exact holds_bringUp_of_vacant (w := w.setClaimed true) ⟨hv.table, hv.locking, hv.count⟩ hup hk
  | teardown | drop | uninstall | ask | finishSession => exact h.elim

theorem RemovesByName.holds_effect {op : Operation} (h : op.RemovesByName w r) :
    (op.effect w).holds r = .empty := by
  cases op with
  | teardown r' =>
    obtain ⟨rfl, hin⟩ := h
    rw [effect, if_pos hin, World.holds_strip, if_pos rfl]
  | install | newHandle | drop | uninstall | ask | beginSession | finishSession => exact h.elim

theorem GivesUp.holds_effect {op : Operation} (h : op.GivesUp w r) :
    (op.effect w).holds r = .empty := by
  have hhandle : ∀ {h : Handle}, h.registry = r → h.isCurrent w = true →
      (h.effect w).holds r = .empty := by
    rintro h rfl hc
    rw [Handle.effect, if_pos hc, World.holds_strip, if_pos rfl]
  cases op with
  | drop | uninstall | finishSession => exact hhandle h.1 h.2
  | install | newHandle | teardown | ask | beginSession => exact h.elim

/-- what an operation that nobody comes between leaves a registry with -/
theorem holds_run (op : Operation) (who : Thread) (w : World) (r : Registry) :
    ((op.program w.edition).run who w).2.holds r = (op.effect w).holds r :=
  World.eq_of_stock (World.holds · r) (fun _ => rfl) (op.stock_run who w)

/-- **What becomes of the callbacks of other parties.**  Let no handle come to its end at a registry
where another party has put a callback since its table was made.  Then a locking callback of another
party stays where it is, unless the operation removes the table in the name of that registry.  A
thread id callback of another party does so too, unless the operation makes a table for the
registry: one that does so has found the locking slot free, and sets both slots.  What removes the
table in the name of a registry clears both of its slots, and so does the end of the handle. -/
theorem foreign_callbacks_stay (op : Operation) (who : Thread) (w : World) (r : Registry)
    (hown : op.GivesUp w r → ¬ w.HasForeign r) :
    (∀ k, w.locking r = some (.foreign k) → ¬ op.RemovesByName w r →
      ((op.program w.edition).run who w).2.locking r = some (.foreign k)) ∧
    (w.idCallback r = some .foreign → ¬ op.Makes w r → ¬ op.RemovesByName w r →
      ((op.program w.edition).run who w).2.idCallback r = some .foreign) ∧
    (op.RemovesByName w r → ((op.program w.edition).run who w).2.holds r = .empty) ∧
    (op.Makes w r → w.locking r = none ∧ (w.keeps r = true →
      ((op.program w.edition).run who w).2.holds r = op.made w)) ∧
    (op.GivesUp w r → ((op.program w.edition).run who w).2.holds r = .empty) := by
  have hrun := op.holds_run who w r
  refine ⟨fun k hk hn => ?_, fun hf hm hn => ?_, fun hn => hrun.trans hn.holds_effect,
    fun hm => ⟨hm.locking_eq_none, fun hk => hrun.trans (hm.holds_effect hk)⟩,
    fun hg => hrun.trans hg.holds_effect⟩
  · have hm : ¬ op.Makes w r := fun hm => nomatch hk.symm.trans hm.locking_eq_none
    have hg : ¬ op.GivesUp w r := fun hg => hown hg (.inl ⟨k, hk⟩)
    rw [holds_effect hm hn hg] at hrun
    exact (congrArg Slots.locking hrun).trans hk
  · have hg : ¬ op.GivesUp w r := fun hg => hown hg (.inr hf)
    rw [holds_effect hm hn hg] at hrun
    exact (congrArg Slots.id hrun).trans hf

/-- Another party has registered a callback at a recorder and one at the host. -/
def guest : World :=
  (Outside.registerId .host (some .foreign)).apply
    ((Outside.register (.recorder 0) (some (.foreign 0))).apply (.initial .legacy (fun _ => 2) 1))

/-- The last operation is the end of the handle whose table has been made at another recorder than
the guest's. -/
theorem foreign_callbacks_stay_guest :
    (((install (.recorder 0)).program .legacy).run .main guest).2.locking (.recorder 0)
      = some (.foreign 0) ∧
    (((install (.recorder 0)).program .legacy).run .main guest).2.idCallback .host
      = some .foreign ∧
    (((install (.recorder 1)).program .legacy).run .main guest).2.holds (.recorder 1)
      = ⟨some .own, some .own⟩ ∧
    (((teardown (.recorder 0)).program .legacy).run .main (guest.equip (.recorder 1))).2.holds
      (.recorder 0) = .empty ∧
    (((drop ⟨.recorder 1, some 1⟩).program .legacy).run .main (guest.equip (.recorder 1))).2.holds
      (.recorder 1) = .empty := by
  have hrec := foreign_callbacks_stay (install (.recorder 0)) .main guest (.recorder 0) nofun
  have hhost := foreign_callbacks_stay (install (.recorder 0)) .main guest .host nofun
  have hmade := foreign_callbacks_stay (install (.recorder 1)) .main guest (.recorder 1) nofun
  have hgone := foreign_callbacks_stay (teardown (.recorder 0)) .main (guest.equip (.recorder 1))
    (.recorder 0) nofun
  have hend := foreign_callbacks_stay (drop ⟨.recorder 1, some 1⟩) .main
    (guest.equip (.recorder 1)) (.recorder 1) fun _ hf => hf.elim nofun nofun
  exact ⟨hrec.1 0 rfl id, hhost.2.1 rfl (fun hm => nomatch hm.1) id,
    (hmade.2.2.2.1 ⟨rfl, rfl, rfl, by decide⟩).2 rfl, hgone.2.2.1 ⟨rfl, rfl⟩,
    hend.2.2.2.2 ⟨rfl, rfl⟩⟩

/-- Whatever makes a table does not ask what the thread id slot holds, and what removes one by name
asks for neither slot. -/
theorem foreign_callbacks_replaced :
    let w := (Outside.registerId .host (some .foreign)).apply (.initial .legacy (fun _ => 2) 1)
    let poor := (Outside.seed false).apply w
    let taken := (Outside.register .host (some (.foreign 0))).apply
      (((install (.recorder 0)).program .legacy).run .main w).2
    w.idCallback .host = some .foreign ∧
    (((install .host).program .legacy).run .main w).2.idCallback .host = some .own ∧
    (((newHandle .host).program .legacy).run .main w).2.idCallback .host = some .own ∧
    ((beginSession.program .legacy).run .main w).2.idCallback .host = some .own ∧
    poor.idCallback .host = some .foreign ∧
    ((beginSession.program .legacy).run .main poor).2.idCallback .host = none ∧
    taken.holds .host = ⟨some (.foreign 0), some .foreign⟩ ∧
    (((teardown .host).program .legacy).run .main taken).2.holds .host = .empty := by
  refine ⟨?_, ?_, ?_, ?_, ?_, ?_, ?_, ?_⟩ <;> cbv

end Operation

end CallbackLocks
