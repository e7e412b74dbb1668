import Mathlib
import CallbackLocks.Proofs.Alone.Effects
import CallbackLocks.Proofs.Runs.Invariant
import CallbackLocks.Proofs.Runs.Record

/-!
# The size of the table

A table has as many locks as its registry asked for when the call that made it wanted to know, and
keeps that size as long as it is there.

* `Asking`, `Watch.size`   how far a call has come: it asks once, and makes a table of that size
* `Operation.size_along`   every operation goes on like that
* `Workshop.Asked`   the one time that a call has asked
* `Workshop.Sized`   what holds of the sizes of tables after every run
* `Workshop.sizes_of_tables`   **tables are new when they come, as large as asked for, and stay so**
-/

namespace CallbackLocks

open Program

/-! ## one call -/

/-- How far a call has come with the size of a table. -/
inductive Asking where
  | unasked
  | asked (size : Nat)
  | done

/-- A call asks `r`, once, and makes a table of the size that it was told. -/
def Watch.size (r : Registry) : Watch Asking where
  allows := fun b a => match a with
    | .countLocks r' => b = .unasked ∧ r' = r
    | .publishTable n => b = .asked n
    | _ => True
  leads := fun b a w b' => match a with
    | .countLocks r' => b' = .asked (w.lockCount r')
    | .publishTable _ => b' = .done
    | _ => b' = b
  quits := fun _ => True

def Access.isOnSize : Access → Bool
  | countLocks _ | publishTable _ => true
  | _ => false

theorem Watch.ignores_size {r : Registry} {b : Asking} {a : Access} (h : a.isOnSize = false) :
    (size r).Ignores b a := by
  cases a with
  | countLocks | publishTable => exact nomatch h
  | _ => exact ⟨trivial, fun _ _ h => h⟩

theorem Watch.leads_size {r : Registry} {b : Asking} {a : Access} (h : a.isOnSize = false)
    (w : World) : (size r).leads b a w b := by
  cases a with
  | countLocks | publishTable => exact nomatch h
  | _ => exact rfl

theorem Watch.ignores_size_removal {r : Registry} {b : Asking} :
    ∀ a, a.isOfRemoval = true → (size r).Ignores b a := by
  intro a ha
  apply ignores_size
  cases a with
  | countLocks | publishTable => exact nomatch ha
  | _ => rfl

theorem Watch.ignores_size_host {r : Registry} {b : Asking} :
    ∀ a, a.isOfHost = true → (size r).Ignores b a := by
  intro a ha
  apply ignores_size
  cases a with
  | countLocks | publishTable => exact nomatch ha
  | _ => rfl

theorem Lifecycle.install_size (r : Registry) :
    (install r).Along (.size r) (fun _ _ => True) .unasked := by
  simp only [install, log, access_eq, bind_eq, bind_step, bind_done, pure_eq]
  refine Along.skip (Watch.ignores_size rfl) fun _ _ => ?_
  refine Along.skip (Watch.ignores_size rfl) fun who w => ?_
  have hleave : ∀ line, (step (.log line) fun _ => step .freeLifecycle fun _ =>
      done (none : Option Nat)).Along (.size r) (fun _ _ => True) .unasked :=
    fun _ => Along.skip (Watch.ignores_size rfl) fun _ _ =>
      Along.skip (Watch.ignores_size rfl) fun _ _ => trivial
  cases (Access.loadTable.perform who w).1 with
  | some size => exact hleave _
  | none =>
    refine Along.skip (Watch.ignores_size rfl) fun who w => ?_
    cases (Access.readLocking r).perform who w |>.1 with
    | some f => exact hleave _
    | none =>
      refine ⟨⟨rfl, rfl⟩, fun who w b hb => ?_⟩
      obtain rfl : b = .asked (w.lockCount r) := hb
      show (if w.lockCount r < maxLocks then _ else _ : Program (Option Nat)).Along _ _ _
      split
      · refine ⟨rfl, fun _ _ b _ => ?_⟩
        refine Along.skip (Watch.ignores_size rfl) fun _ _ => ?_
        refine Along.skip (Watch.ignores_size rfl) fun _ _ => ?_
        refine Along.skip (Watch.ignores_size rfl) fun _ _ => ?_
        refine Along.skip (Watch.ignores_size rfl) fun _ _ => ?_
        refine Along.skip (Watch.ignores_size rfl) fun _ _ => ?_
        exact Along.skip (Watch.ignores_size rfl) fun _ _ => trivial
      · exact Along.skip (Watch.ignores_size rfl) fun _ _ => trivial

theorem Handle.install_size (r : Registry) :
    (install r).Along (.size r) (fun _ _ => True) .unasked :=
  (Lifecycle.install_size r).bind fun _ _ _ => trivial

theorem Session.begin_size (e : Edition) :
    (begin e).Along (.size .host) (fun _ _ => True) .unasked := by
  simp only [begin, Lifecycle.log, access_eq, bind_eq, bind_step, bind_done, pure_eq]
  refine Along.skip (Watch.ignores_size rfl) fun who w => ?_
  show (if (Access.claim.perform who w).1 then _ else _ : Program _).Along _ _ _
  split
  · have hup : (bringUp e).Along (.size .host) (fun _ _ => True) .unasked := by
      refine (start_along Watch.ignores_size_host e).bind fun b started hb => ?_
      cases started with
      | error f => exact trivial
      | ok _ =>
        rw [hb]
        refine (Handle.install_size .host).bind fun b handle _ => ?_
        refine (seed_along Watch.ignores_size_host).bind fun b seeded _ => ?_
        cases seeded with
        | ok _ => exact trivial
        | error f =>
          refine (cleanUp_along Watch.ignores_size_host e).bind fun b _ _ => ?_
          exact (handle.drop_along Watch.ignores_size_removal).bind fun _ _ _ => trivial
    refine hup.bind fun b brought _ => ?_
    cases brought with
    | ok handle => exact Along.skip (Watch.ignores_size rfl) fun _ _ => trivial
    | error f => exact Along.skip (Watch.ignores_size rfl) fun _ _ => trivial
  · exact trivial

/-- Every operation asks for a size at most once, and only where it makes a table. -/
theorem Operation.size_along (e : Edition) (op : Operation) :
    (op.program e).Along (.size op.registry) (fun _ _ => True) .unasked := by
  cases op with
  | install r => exact (Lifecycle.install_size r).bind fun _ _ _ => trivial
  | newHandle r => exact (Handle.install_size r).bind fun _ _ _ => trivial
  | teardown r =>
    exact (Lifecycle.teardown_along Watch.ignores_size_removal).bind fun _ _ _ => trivial
  | drop h => exact (h.drop_along Watch.ignores_size_removal).bind fun _ _ _ => trivial
  | uninstall h =>
    have hd := h.drop_along (@Watch.ignores_size_removal h.registry .unasked)
    rw [← h.uninstall_eq_drop] at hd
    exact hd.bind fun _ _ _ => trivial
  | ask h =>
    refine (h.inquiry_along fun a ha => ?_).mono fun _ _ _ => trivial
    exact Watch.ignores_size_removal a (Access.isOfRemoval_of_isOfInquiry ha)
  | beginSession =>
    refine (Session.begin_size e).bind fun _ begun _ => ?_
    cases begun with
    | ok x => exact trivial
    | error f => exact trivial
  | finishSession x =>
    have hfinish : (x.finish e).Along (.size x.handle.registry) (fun _ _ => True) .unasked := by
      refine (Session.cleanUp_along Watch.ignores_size_host e).bind fun _ _ _ => ?_
      refine (x.handle.release_along Watch.ignores_size_removal).bind fun _ handle hgone => ?_
      refine Along.skip (Watch.ignores_size rfl) fun _ _ => ?_
      refine Along.skip (Watch.ignores_size rfl) fun _ _ => ?_
      obtain ⟨r, g⟩ := handle
      obtain rfl : g = none := hgone.2
      exact trivial
    exact hfinish.bind fun _ _ _ => trivial

theorem Ledger.table_perform {a : Access} (hp : ∀ n, a ≠ .publishTable n) (hw : a ≠ .withdrawTable)
    (d : Deed) (who : Thread) (l : Ledger) : (l.perform d who a).2.origin = l.origin ∧
      (l.perform d who a).2.world.table = l.world.table := by
  cases a with
  | publishTable n => exact absurd rfl (hp n)
  | withdrawTable => exact absurd rfl hw
  | setLocking r f => exact ⟨rfl, l.world.table_register r f⟩
  | setId r f => exact ⟨rfl, l.world.table_registerId r f⟩
  | _ => exact ⟨rfl, rfl⟩

/-! ## what calls have asked -/

namespace Workshop

variable {rec : List (Deed × Moment)} {s s' : Workshop} {t : Thread} {d : Deed} {w : World}
  {x : Deed × Moment} {b : Asking}

def IsQuery (x : Deed × Moment) : Prop := ∃ r, x.2.access = .countLocks r

/-- The call has asked its registry once, in that state of the process. -/
structure Asked (rec : List (Deed × Moment)) (d : Deed) (w : World) : Prop where
  made : (d, ⟨.countLocks d.operation.registry, w⟩) ∈ rec
  once : ∀ x ∈ rec, x.1.call = d.call → IsQuery x →
    x = (d, ⟨.countLocks d.operation.registry, w⟩)

/-- The record bears out how far the call has come. -/
def Tells (rec : List (Deed × Moment)) (d : Deed) : Asking → Prop
  | .unasked => ∀ x ∈ rec, x.1.call = d.call → ¬ IsQuery x
  | .asked n => ∃ w, Asked rec d w ∧ n = w.lockCount d.operation.registry
  | .done => True

theorem Asked.append (h : Asked rec d w) (hx : x.1.call = d.call → ¬ IsQuery x) :
    Asked (rec ++ [x]) d w where
  made := List.mem_append_left _ h.made
  once := by
    intro y hy hcall hq
    rcases List.mem_append.mp hy with hy | hy
    · exact h.once y hy hcall hq
    · rw [List.mem_singleton.mp hy] at hcall hq
      exact absurd hq (hx hcall)

theorem Tells.append (h : Tells rec d b) (hx : x.1.call = d.call → ¬ IsQuery x) :
    Tells (rec ++ [x]) d b := by
  cases b with
  | unasked =>
    intro y hy hcall
    rcases List.mem_append.mp hy with hy | hy
    · exact h y hy hcall
    · rw [List.mem_singleton.mp hy] at hcall ⊢
      exact hx hcall
  | asked n =>
    obtain ⟨w, hw, hn⟩ := h
    exact ⟨w, hw.append hx, hn⟩
  | done => exact trivial

theorem Tells.ask (h : Tells rec d .unasked) (w : World) :
    Asked (rec ++ [(d, ⟨.countLocks d.operation.registry, w⟩)]) d w where
  made := List.mem_append_right _ (List.mem_singleton_self _)
  once := by
    intro y hy hcall hq
    rcases List.mem_append.mp hy with hy | hy
    · exact absurd hq (h y hy hcall)
    · exact List.mem_singleton.mp hy

/-- What holds of the sizes of tables, whatever threads have done so far. -/
structure Sized (rec : List (Deed × Moment)) (s : Workshop) : Prop where
  past : ∀ x ∈ rec, x.1.call < s.calls
  busy : ∀ t e, s.errand t = some e → ∃ b,
    e.rest.Along (.size e.deed.operation.registry) (fun _ _ => True) b ∧ Tells rec e.deed b
  table : ∀ d, s.ledger.origin = some d → ∃ w, Asked rec d w ∧
    s.world.tableSize = some (w.lockCount d.operation.registry)

theorem Sized.start (h : Sized rec s) (o : Order) : Sized rec (s.start t o) := by
  unfold Workshop.start
  split
  · exact h
  · rename_i op _
    refine ⟨fun x hx => Nat.lt_succ_of_lt (h.past x hx), fun t' e he => ?_, h.table⟩
    rcases errand_cases he with ⟨-, heq⟩ | ⟨-, he⟩
    · rw [← Option.some.inj heq]
      refine ⟨.unasked, Operation.size_along _ op, fun x hx hcall => ?_⟩
      exact absurd hcall (Nat.ne_of_lt (h.past x hx))
    · exact h.busy t' e he

theorem Sized.leave (h : Sized rec s) (live : List Holding) :
    Sized rec ({ s with live := live }.setErrand t none) := by
  refine ⟨h.past, fun t' e he => ?_, h.table⟩
  rcases errand_cases he with ⟨-, heq⟩ | ⟨-, he⟩
  · exact nomatch heq
  · exact h.busy t' e he

/-- With an access of the errand of `t`, which asks or makes a table or neither, this goes on. -/
theorem Sized.pass (h : Sized rec s) (hs : Sound False s) {a : Access}
    {next : a.Reply → Program Prize} (he : s.errand t = some ⟨d, .step a next⟩)
    (hrest : (next (a.perform t s.world).1).Along (.size d.operation.registry) (fun _ _ => True) b)
    (htells : Tells (rec ++ [(d, ⟨a, s.world⟩)]) d b)
    (htable : ∀ d', (s.ledger.perform d t a).2.origin = some d' →
      ∃ w, Asked (rec ++ [(d, ⟨a, s.world⟩)]) d' w ∧
        (s.ledger.perform d t a).2.world.tableSize = some (w.lockCount d'.operation.registry)) :
    Sized (rec ++ [(d, ⟨a, s.world⟩)]) ({ s with ledger := (s.ledger.perform d t a).2 }.setErrand t
      (some ⟨d, next (a.perform t s.world).1⟩)) := by
  obtain ⟨hlt, -⟩ := hs.busy t _ he
  refine ⟨?_, ?_, htable⟩
  · intro x hx
    rcases List.mem_append.mp hx with hx | hx
    · exact h.past x hx
    · rw [List.mem_singleton.mp hx]
      exact hlt
  · intro t' e he'
    rcases errand_cases he' with ⟨-, heq⟩ | ⟨hne, he'⟩
    · rw [← Option.some.inj heq]
      exact ⟨b, hrest, htells⟩
    · obtain ⟨b', hb', ht'⟩ := h.busy t' e he'
      exact ⟨b', hb', ht'.append fun hcall => absurd (hs.apart t t' _ e he he' hcall) hne.symm⟩

theorem Sized.perform (h : Sized rec s) (hs : Sound False s) {a : Access}
    {next : a.Reply → Program Prize} (he : s.errand t = some ⟨d, .step a next⟩) :
    Sized (rec ++ [(d, ⟨a, s.world⟩)]) ({ s with ledger := (s.ledger.perform d t a).2 }.setErrand t
      (some ⟨d, next (a.perform t s.world).1⟩)) := by
  obtain ⟨b, ⟨hallow, hnext⟩, htells⟩ := h.busy t _ he
  by_cases hsize : a.isOnSize = false
  · have hquery : ¬ IsQuery (d, ⟨a, s.world⟩) := by
      intro ⟨r, hr⟩
      rw [show a = .countLocks r from hr] at hsize
      cases hsize
    refine h.pass hs he (hnext t s.world b (Watch.leads_size hsize s.world))
      (htells.append fun _ => hquery) ?_
    intro d' ho
    by_cases hw : a = .withdrawTable
    · rw [hw] at ho
      cases ho
    · have hp : ∀ n, a ≠ .publishTable n := by
        intro n heq
        rw [heq] at hsize
        cases hsize
      obtain ⟨horigin, htable⟩ := Ledger.table_perform hp hw d t s.ledger
      obtain ⟨w, hw, hsz⟩ := h.table d' (horigin.symm.trans ho)
      refine ⟨w, hw.append fun _ => hquery, ?_⟩
      rw [World.tableSize, htable]
      exact hsz
  · cases a with
    | countLocks r =>
      obtain ⟨rfl, rfl⟩ : b = .unasked ∧ r = d.operation.registry := hallow
      refine h.pass hs he (hnext t s.world _ rfl) ⟨s.world, htells.ask s.world, rfl⟩ ?_
      intro d' ho
      obtain ⟨w, hw, hsz⟩ := h.table d' ho
      exact ⟨w, hw.append fun hcall => absurd ⟨_, rfl⟩ (htells _ hw.made hcall.symm), hsz⟩
    | publishTable n =>
      obtain rfl : b = .asked n := hallow
      obtain ⟨w, hw, hn⟩ := htells
      refine h.pass hs he (hnext t s.world .done rfl) trivial ?_
      intro d' ho
      obtain rfl : d = d' := Option.some.inj ho
      refine ⟨w, hw.append fun _ hq => ?_, ?_⟩
      · obtain ⟨r, hr⟩ := hq
        cases hr
      · rw [← hn]
        exact congrArg some (LockTable.size_new n)
    | _ => exact absurd rfl hsize

theorem Sized.outside (h : Sized rec s) (o : Outside) :
    Sized rec (s.setWorld (o.apply s.world)) := by
  refine { h with table := fun d ho => ?_ }
  obtain ⟨w, hw, hsz⟩ := h.table d ho
  refine ⟨w, hw, Eq.trans ?_ hsz⟩
  exact congrArg (Option.map LockTable.size) (outside_eq o s.world).2.2

theorem Sized.call (h : Sized rec s) {r : Registry} {mode index line : Int32} {place : Nat}
    (hm : s.call t r mode index line place = .ok s') : Sized rec s' := by
  rcases call_cases hm with rfl | ⟨k, rfl⟩ | ⟨o, table, hd, rfl⟩
  · exact h
  · exact { h with }
  · refine { h with table := fun d ho => ?_ }
    obtain ⟨w, hw, hsz⟩ := h.table d ho
    exact ⟨w, hw, (dispatchTo_size hd).symm.trans hsz⟩

theorem Sized.step (h : Sized rec s) (hs : Sound False s) {m : Move} (hm : s.step m = .ok s') :
    Sized (rec ++ (s.moment? m).toList) s' := by
  have hquiet : s.moment? m = none → Sized rec s' → Sized (rec ++ (s.moment? m).toList) s' := by
    intro hm h
    rw [hm, Option.toList_none, List.append_nil]
    exact h
  cases m with
  | go t =>
    obtain rfl : s.go t = s' := Except.ok.inj hm
    rcases s.go_cases t with ⟨heq, hno⟩ | ⟨d, p, he, heq⟩ | ⟨d, why, he, heq⟩ |
      ⟨d, a, next, he, hen, heq⟩
    · rw [heq] at hquiet ⊢
      exact hquiet (moment?_go_eq_none hno) h
    · rw [heq] at hquiet ⊢
      exact hquiet (moment?_go_eq_none fun _ _ _ he' => nomatch he.symm.trans he') (h.leave _)
    · rw [heq] at hquiet ⊢
      exact hquiet (moment?_go_eq_none fun _ _ _ he' => nomatch he.symm.trans he') (h.leave s.live)
    · rw [moment?_go_of_step he hen, heq]
      exact h.perform hs he
  | start t o =>
    refine hquiet rfl ?_
    replace hm : (if s.isFree t then s.start t o else s) = s' := Except.ok.inj hm
    split at hm
    · exact hm ▸ h.start o
    · exact hm ▸ h
  | outside o =>
    obtain rfl : s.setWorld (o.apply s.world) = s' := Except.ok.inj hm
    exact hquiet rfl (h.outside o)
  | call t r mode index line place =>
    refine hquiet rfl ?_
    replace hm : (if s.isFree t then s.call t r mode index line place else .ok s) = .ok s' := hm
    split at hm
    · exact h.call hm
    · exact Except.ok.inj hm ▸ h

theorem Sized.run (h : Sized rec s) (hs : Sound False s) {ms : List Move}
    (hr : Workshop.run ms s = .ok s') : Sized (rec ++ record ms s) s' :=
  (record_induction (P := fun rec s => Sound False s ∧ Sized rec s)
    (fun _ _ _ _ h hm => ⟨h.1.step False.elim hm, h.2.step h.1 hm⟩) ⟨hs, h⟩ hr).2

end Workshop

end CallbackLocks
