import Mathlib
import CallbackLocks.Proofs.Runs.Loading

/-!
# What is loaded is cleaned up

A legacy host that has been loaded is cleaned up when the session ends, or right away if the session
does not come about: by three calls in a row, with the table still there.

* `Access.isCleaning`, `Access.unregisters`   what cleans up, and what takes callbacks away
* `Moment.Spares`    a table that is there stays
* `Cleans`           how an operation cleans up, if it does
* `Operation.cleans`   **every operation cleans up like that**
* `Workshop.loads_are_cleaned_up`   **what has been loaded is cleaned up once, before its callbacks
                     go away**
-/

namespace CallbackLocks

open Program

/-! ## accesses -/

def Access.isCleaning : Access → Bool
  | cleanAlgorithms | cleanExtraData | freeErrorStrings => true
  | _ => false

def Access.unregisters : Access → Bool
  | setLocking _ none | setId _ none | withdrawTable => true
  | _ => false

def Access.publishes : Access → Bool
  | publishTable _ => true
  | _ => false

/-- Nothing is cleaned up or taken away, and a table comes only if there is none. -/
structure Moment.Spares (x : Moment) : Prop where
  dirty : x.access.isCleaning = false
  kept : x.access.unregisters = false
  free : x.access.publishes = true → x.world.table = none

theorem Moment.Spares.table_eq {x : Moment} (h : x.Spares) (hin : x.world.isInstalled = true)
    (who : Thread) : (x.access.perform who x.world).2.table = x.world.table := by
  obtain ⟨a, w⟩ := x
  cases a with
  | publishTable n =>
    rw [World.isInstalled, h.free rfl] at hin
    cases hin
  | withdrawTable => cases h.kept
  | setLocking r f => exact w.table_register r f
  | setId r f => exact w.table_registerId r f
  | _ => rfl

section
variable {α β : Type} {p : Program α} {f : α → Program β} {who : Thread} {w : World}
  {l l' : List Moment}

/-- A table that is there at some time while a program runs is there when it is over. -/
theorem Program.table_run_of_spares (h : ∀ x ∈ p.moments who w, x.Spares) :
    ∀ v ∈ w :: (p.moments who w).map Moment.world, v.isInstalled = true →
      (p.run who w).2.table = v.table := by
  induction p generalizing w with
  | done | abandon =>
    intro v hv _
    rw [List.mem_singleton.mp hv]
    rfl
  | step a next ih =>
    obtain ⟨hx, hrest⟩ := List.forall_mem_cons.mp h
    have hw : w.isInstalled = true → ((step a next).run who w).2.table = w.table := by
      intro hin
      have htable := hx.table_eq hin who
      refine (ih _ hrest _ List.mem_cons_self ?_).trans htable
      rw [World.isInstalled, htable]
      exact hin
    intro v hv hin
    rw [moments_step, List.map_cons, List.mem_cons, List.mem_cons] at hv
    rcases hv with rfl | rfl | hv
    · exact hw hin
    · exact hw hin
    · exact ih _ hrest v (List.mem_cons_of_mem _ hv) hin

/-! ## cleaning up -/

/-- What is done from `w` on cleans up by three calls in a row, if at all.  Nothing has been taken
away by then, and the table that was there at the start or has come since is there at all three. -/
def Cleans (w : World) (l : List Moment) : Prop :=
  (∀ x ∈ l, x.access.isCleaning = false) ∨
  ∃ before w₁ w₂ w₃ rest, l = before ++ ⟨.cleanAlgorithms, w₁⟩ :: ⟨.cleanExtraData, w₂⟩ ::
      ⟨.freeErrorStrings, w₃⟩ :: rest ∧
    (∀ x ∈ before, x.access.isCleaning = false ∧ x.access.unregisters = false) ∧
    (∀ x ∈ rest, x.access.isCleaning = false) ∧
    (∀ v ∈ w :: before.map Moment.world, v.isInstalled = true → w₁.table = v.table) ∧
    w₂.table = w₁.table ∧ w₃.table = w₁.table

theorem Cleans.append (h : Cleans w l) (hl : ∀ x ∈ l', x.access.isCleaning = false) :
    Cleans w (l ++ l') := by
  rcases h with h | ⟨before, w₁, w₂, w₃, rest, rfl, hbefore, hrest, htable⟩
  · exact .inl (List.forall_mem_append.mpr ⟨h, hl⟩)
  · refine .inr ⟨before, w₁, w₂, w₃, rest ++ l', ?_, hbefore,
      List.forall_mem_append.mpr ⟨hrest, hl⟩, htable⟩
    simp only [List.append_assoc, List.cons_append]

/-- What cleans up still does after a program that spares the table. -/
theorem Cleans.after (hp : ∀ x ∈ p.moments who w, x.Spares)
    (h : Cleans (p.run who w).2 l) : Cleans w (p.moments who w ++ l) := by
  rcases h with h | ⟨before, w₁, w₂, w₃, rest, rfl, hbefore, hrest, htable, hsame⟩
  · exact .inl (List.forall_mem_append.mpr ⟨fun x hx => (hp x hx).dirty, h⟩)
  · refine .inr ⟨p.moments who w ++ before, w₁, w₂, w₃, rest, (List.append_assoc ..).symm,
      List.forall_mem_append.mpr ⟨fun x hx => ⟨(hp x hx).dirty, (hp x hx).kept⟩, hbefore⟩, hrest,
      fun v hv hin => ?_, hsame⟩
    have hsplit : v ∈ w :: (p.moments who w).map Moment.world ∨ v ∈ before.map Moment.world := by
      rw [List.map_append, ← List.cons_append] at hv
      exact List.mem_append.mp hv
    rcases hsplit with hv | hv
    · have hend := table_run_of_spares hp v hv hin
      refine (htable _ List.mem_cons_self ?_).trans hend
      rw [World.isInstalled, hend]
      exact hin
    · exact htable v (List.mem_cons_of_mem _ hv) hin

theorem Cleans.bind_after (hp : ∀ x ∈ p.moments who w, x.Spares)
    (hf : ∀ x w', Cleans w' ((f x).moments who w')) : Cleans w ((p.bind f).moments who w) := by
  rw [moments_bind]
  refine Cleans.after hp ?_
  split
  · rename_i x w' hrun
    rw [hrun]
    exact hf x w'
  · exact .inl fun _ hx => nomatch hx

theorem Cleans.bind (hp : Cleans w (p.moments who w))
    (hf : ∀ x w', ∀ y ∈ (f x).moments who w', y.access.isCleaning = false) :
    Cleans w ((p.bind f).moments who w) := by
  rw [moments_bind]
  refine hp.append ?_
  split
  · exact hf _ _
  · exact fun _ hx => nomatch hx

end

/-! ## operations -/

def Watch.dirty : Watch Unit where
  allows := fun _ a => a.isCleaning = false
  leads := fun _ _ _ _ => True
  quits := fun _ => True

theorem Watch.ignores_dirty {a : Access} (h : a.isCleaning = false) : dirty.Ignores () a :=
  ⟨h, fun _ _ _ => rfl⟩

theorem Watch.ignores_dirty_install : ∀ a, a.isOfInstall = true → dirty.Ignores () a := by
  intro a ha
  apply ignores_dirty
  cases a with
  | cleanAlgorithms | cleanExtraData | freeErrorStrings => exact nomatch ha
  | _ => rfl

theorem Watch.ignores_dirty_removal : ∀ a, a.isOfRemoval = true → dirty.Ignores () a := by
  intro a ha
  apply ignores_dirty
  cases a with
  | cleanAlgorithms | cleanExtraData | freeErrorStrings => exact nomatch ha
  | _ => rfl

theorem Program.Along.dirty {α : Type} {p : Program α} {post : Unit → α → Prop}
    (h : p.Along .dirty post ()) (who : Thread) (w : World) :
    ∀ x ∈ p.moments who w, x.access.isCleaning = false := by
  induction p generalizing w with
  | done | abandon => exact fun _ hx => nomatch hx
  | step a next ih =>
    rw [moments_step, List.forall_mem_cons]
    exact ⟨h.1, ih _ (h.2 who w () trivial) _⟩

section
variable (who : Thread) (w : World)

theorem Program.spares_step {α : Type} {a : Access} {next : a.Reply → Program α}
    (hc : a.isCleaning = false) (hu : a.unregisters = false) (hp : a.publishes = false)
    (h : ∀ x ∈ (next (a.perform who w).1).moments who (a.perform who w).2, x.Spares) :
    ∀ x ∈ (step a next).moments who w, x.Spares :=
  List.forall_mem_cons.mpr ⟨⟨hc, hu, fun hp' => absurd (hp.symm.trans hp') Bool.false_ne_true⟩, h⟩

theorem Program.spares_publish {α : Type} {n : Nat} {next : Unit → Program α} (ht : w.table = none)
    (h : ∀ x ∈ (next ()).moments who { w with table := some (.new n) }, x.Spares) :
    ∀ x ∈ (step (.publishTable n) next).moments who w, x.Spares :=
  List.forall_mem_cons.mpr ⟨⟨rfl, rfl, fun _ => ht⟩, h⟩

theorem Program.spares_done {α : Type} (x : α) : ∀ y ∈ (done x).moments who w, y.Spares :=
  fun _ hy => nomatch hy

theorem Lifecycle.install_spares (r : Registry) :
    ∀ x ∈ (install r).moments who w, x.Spares := by
  have hleave : ∀ line v, ∀ x ∈ (step (.log line) fun _ => step .freeLifecycle fun _ =>
      done (none : Option Nat)).moments who v, x.Spares := by
    intro line v
    refine spares_step who _ rfl rfl rfl ?_
    exact spares_step who _ rfl rfl rfl (spares_done who _ _)
  simp only [install, log, access_eq, bind_eq, bind_step, bind_done, pure_eq]
  refine spares_step who _ rfl rfl rfl ?_
  refine spares_step who _ rfl rfl rfl ?_
  split
  · exact hleave _ _
  rename_i hload
  have htable : w.table = none := Option.map_eq_none_iff.mp hload
  refine spares_step who _ rfl rfl rfl ?_
  split
  · exact hleave _ _
  refine spares_step who _ rfl rfl rfl ?_
  split
  · refine spares_publish who _ htable ?_
    refine spares_step who _ rfl rfl rfl ?_
    refine spares_step who _ rfl rfl rfl ?_
    refine spares_step who _ rfl rfl rfl ?_
    refine spares_step who _ rfl rfl rfl ?_
    refine spares_step who _ rfl rfl rfl ?_
    exact spares_step who _ rfl rfl rfl (spares_done who _ _)
  · exact spares_step who _ rfl rfl rfl fun _ hx => absurd hx List.not_mem_nil

theorem Handle.install_spares (r : Registry) : ∀ x ∈ (install r).moments who w, x.Spares := by
  rw [install, bind_eq, moments_bind]
  refine List.forall_mem_append.mpr ⟨Lifecycle.install_spares who w r, ?_⟩
  split
  · exact spares_done who _ _
  · exact fun _ hx => nomatch hx

namespace Session

theorem start_spares : ∀ x ∈ (start .legacy).moments who w, x.Spares := by
  refine spares_step who w rfl rfl rfl ?_
  show ∀ x ∈ (if w.startCode = 1 then _ else _ : Program _).moments who _, x.Spares
  split
  · exact spares_step who _ rfl rfl rfl (spares_done who _ _)
  · exact spares_step who _ rfl rfl rfl (spares_done who _ _)

theorem seed_spares : ∀ x ∈ seed.moments who w, x.Spares := by
  refine spares_step who w rfl rfl rfl ?_
  show ∀ x ∈ (if w.seeded then _ else _ : Program _).moments who _, x.Spares
  split
  · exact spares_step who _ rfl rfl rfl (spares_done who _ _)
  · exact spares_done who _ _

theorem cleanUp_cleans : Cleans w ((cleanUp .legacy).moments who w) := by
  refine .inr ⟨[], w, _, _, [], rfl, (fun _ hx => nomatch hx), (fun _ hx => nomatch hx),
    (fun v hv _ => ?_), rfl, rfl⟩
  rw [List.mem_singleton.mp hv]

/-- A bring-up that fails cleans up before the handle goes away. -/
theorem bringUp_cleans : Cleans w ((bringUp .legacy).moments who w) := by
  refine Cleans.bind_after (start_spares who w) fun started w₁ => ?_
  cases started with
  | error f => exact .inl fun _ hx => nomatch hx
  | ok _ =>
    refine Cleans.bind_after (Handle.install_spares who w₁ .host) fun handle w₂ => ?_
    refine Cleans.bind_after (seed_spares who w₂) fun seeded w₃ => ?_
    cases seeded with
    | ok _ => exact .inl fun _ hx => nomatch hx
    | error f =>
      refine (cleanUp_cleans who w₃).bind fun _ w₄ => ?_
      have hdrop : (handle.drop.bind fun _ => done (Except.error f)).Along .dirty
          (fun _ (_ : Except Failure Handle) => True) () :=
        (handle.drop_along Watch.ignores_dirty_removal).bind fun _ _ _ => trivial
      exact hdrop.dirty who w₄

theorem begin_cleans : Cleans w ((begin .legacy).moments who w) := by
  have hclaim : ∀ x ∈ (access .claim).moments who w, x.Spares :=
    spares_step who w rfl rfl rfl (spares_done who _ _)
  refine Cleans.bind_after hclaim fun granted w₁ => ?_
  cases granted with
  | false => exact .inl fun _ hx => nomatch hx
  | true =>
    refine (bringUp_cleans who w₁).bind fun brought w₂ => ?_
    cases brought with
    | ok handle => exact List.forall_mem_singleton.mpr rfl
    | error f => exact List.forall_mem_singleton.mpr rfl

/-- A session that ends cleans up before it gives its handle up. -/
theorem finish_cleans (x : Session) : Cleans w ((x.finish .legacy).moments who w) := by
  refine (cleanUp_cleans who w).bind fun _ w₁ => ?_
  have hrelease : (x.handle.release.bind fun handle => step .unclaim fun _ =>
      step (.log .ended) fun _ => handle.drop).Along .dirty (fun _ _ => True) () := by
    refine (x.handle.release_along Watch.ignores_dirty_removal).bind fun _ handle _ => ?_
    refine Along.skip (Watch.ignores_dirty rfl) fun _ _ => ?_
    refine Along.skip (Watch.ignores_dirty rfl) fun _ _ => ?_
    exact (handle.drop_along Watch.ignores_dirty_removal).mono fun _ _ _ => trivial
  exact hrelease.dirty who w₁

end Session

/-- **Every operation that cleans up does so by three calls in a row, before it takes anything
away.** -/
theorem Operation.cleans (op : Operation) : Cleans w ((op.program .legacy).moments who w) := by
  cases hon : op.isOnSession with
  | false =>
    exact .inl ((table_along Watch.ignores_dirty_install Watch.ignores_dirty_removal trivial .legacy
      hon).dirty who w)
  | true =>
    cases op with
    | beginSession =>
      refine (Session.begin_cleans who w).bind fun begun w₁ => ?_
      cases begun with
      | ok x => exact fun _ hx => nomatch hx
      | error f => exact fun _ hx => nomatch hx
    | finishSession x => exact (Session.finish_cleans who w x).bind fun _ _ _ hx => nomatch hx
    | _ => exact nomatch hon

end

/-! ## threads at work -/

namespace Workshop

variable {s : Workshop} {k : Keeper}

/-- As long as no call about sessions is under way, what has been loaded and not been cleaned up
is what a session that is alive has loaded. -/
theorem Kept.balance (h : Kept k s)
    (hquiet : ∀ t e, s.errand t = some e → e.deed.operation.isOnSession = false) :
    s.world.starts = s.world.loads ∧ s.world.loads = s.world.cleanings + s.sessions ∧
      s.sessions ≤ 1 := by
  have hnobody : ∀ t, k.of t = none := by
    intro t
    cases he : s.errand t with
    | none => exact h.idle t he
    | some e => exact (h.busy t e he).2 (hquiet t e he)
  rw [h.starts, h.loads, h.sessions]
  cases k with
  | nobody | session => exact ⟨rfl, rfl, by decide⟩
  | caller t b => exact nomatch (Keeper.of_caller_self t b).symm.trans (hnobody t)

/-- **What has been loaded is cleaned up once, before its callbacks go away.**  After any run with a
legacy host, and while no call about sessions is under way, the host library has been started with
success as often as it has loaded its error strings, and as often as it has been cleaned up, and
once more if a session is alive.  Whatever operation comes next cleans up by three calls in a row,
if at all, before it takes a callback or the table away, and with the table that was there when the
operation began or came since. -/
theorem loads_are_cleaned_up {reported : Nat → Nat} {hostLocks : Int32} {ms : List Move}
    (hr : run ms (initial .legacy reported hostLocks) = .ok s) :
    ((∀ t e, s.errand t = some e → e.deed.operation.isOnSession = false) →
      s.world.starts = s.world.loads ∧ s.world.loads = s.world.cleanings + s.sessions ∧
        s.sessions ≤ 1) ∧
    ∀ (t : Thread) (op : Operation),
      Cleans s.world ((op.program s.world.edition).moments t s.world) := by
  obtain ⟨k, h⟩ := exists_kept_run ⟨.nobody, kept_initial reported hostLocks⟩ hr
  refine ⟨h.balance, fun t op => ?_⟩
  rw [h.edition]
  exact op.cleans t s.world

/-- A bring-up fails for want of a seed, and the next one does not. -/
def secondTry : List Move := .outside (.seed false) :: Move.inARow .main .beginSession 35 ++
  .outside (.seed true) :: Move.inARow .main .beginSession 20

theorem loads_are_cleaned_up_second_try :
    ∃ s, run secondTry (initial .legacy (fun _ => 2) 3) = .ok s ∧
      s.world.starts = 2 ∧ s.world.loads = 2 ∧ s.world.cleanings = 1 ∧ s.sessions = 1 ∧
      ∃ op, s.operation (.finishSession 0) = some op ∧ op.isOnSession = true ∧
        Cleans s.world ((op.program s.world.edition).moments .main s.world) := by
  have h := loads_are_cleaned_up (rfl : run secondTry (initial .legacy (fun _ => 2) 3) = .ok _)
  obtain ⟨hstarts, hloads, -⟩ := h.1 fun t e he => by
    cases t with
    | main | worker | racer =>
      cbv at he
      cases he
  have htwo : _ = 2 := hstarts.symm.trans (by cbv)
  exact ⟨_, rfl, hstarts.trans htwo, htwo, by cbv, by cbv, _, by cbv, by cbv,
    h.2 .main _⟩

end Workshop

end CallbackLocks
