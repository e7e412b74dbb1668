import CallbackLocks.Proofs.Alone.Moves
import CallbackLocks.Proofs.Ownership
import CallbackLocks.Proofs.Undoing

/-!
# What a session leaves behind that could not be begun

A bring-up that fails may have made a table by then, and has to take it back; but a table that was
there before, and callbacks of others, are not its own to remove.

* `World.failure?`   why a session can not be begun now
* `Session.failure?_of_run`   it is the reason that a call gives
* `World.Untouched`   the table, what registries hold to lock with, and the claim are as they were
* `Session.untouched_of_run`   they are after a call that fails
* `Session.early_of_run`   a call that fails before it comes to the table does even less
* `Workshop.failed_session_leaves_nothing`   **nothing is left behind by a session that could not be
                     begun**
-/

namespace CallbackLocks

open Program

variable {w v u : World} {r : Registry} {who : Thread} {f : Failure}

/-! ## why a session can not be begun -/

namespace World

/-- the errors that `who` reads when a legacy host has refused to start -/
def complaints (w : World) (who : Thread) : List ErrorCode :=
  ((w.queues who).pushAll w.startErrors).drain.1

/-- Why a session can not be begun by `who` now, if it can not. -/
def failure? (w : World) (who : Thread) : Option Failure :=
  if w.claimed then some .alreadyInitialized
  else if w.edition = .legacy ∧ w.startCode ≠ 1 then some (.refused (w.complaints who))
  else if w.seeded then none
  else some .noEntropy

end World

namespace Session

theorem run_begin_of_claimed (h : w.claimed = true) (e : Edition) (who : Thread) :
    (begin e).run who w = (.ok (.error .alreadyInitialized), w) := by
  refine (run_step_of (a := .claim) (congrArg not h)).trans ?_
  exact congrArg (Prod.mk _) (World.setClaimed_self h)

theorem run_start_of_refused (hcode : w.startCode ≠ 1) (who : Thread) :
    ∃ queues, (start .legacy).run who w = (.ok (.error (.refused (w.complaints who))),
      ({ w with queues := queues } : World).see [.call (.startHost w.startCode)]) := by
  let asked : World := (Access.startHost.perform who w).2
  have hread : (asked.queues who).drain.1 = w.complaints who := by
    show (if who = who then _ else _ : ErrorQueue).drain.1 = _
    rw [if_pos rfl, World.complaints]
  have hrun : (start .legacy).run who w = (.ok (.error (.refused (asked.queues who).drain.1)),
      (Access.drainErrors.perform who asked).2) := by
    refine (run_step _ _ _ _).trans ?_
    show (if w.startCode = 1 then _ else _ : Program _).run who asked = _
    rw [if_neg hcode]
    rfl
  exact ⟨_, hread ▸ hrun⟩

theorem run_bringUp_of_error {e : Edition} (hstart : (start e).run who w = (.ok (.error f), v)) :
    (bringUp e).run who w = (.ok (.error f), v) := by
  refine (run_bind who (start e) _ w).trans ?_
  rw [hstart]
  rfl

theorem run_begin_of_refused (hfirst : w.claimed = false) (hcode : w.startCode ≠ 1)
    (who : Thread) :
    ∃ queues, (begin .legacy).run who w = (.ok (.error (.refused (w.complaints who))),
      ({ w with queues := queues } : World).see [.call (.startHost w.startCode)]) := by
  obtain ⟨queues, hstart⟩ := run_start_of_refused (w := w.setClaimed true) hcode who
  refine ⟨queues, (run_begin_of_error hfirst (run_bringUp_of_error hstart)).trans
    (congrArg (Prod.mk _) ?_)⟩
  rw [World.see_eq, World.see_eq, ← hfirst]
  rfl

/-- Why a call fails, and what it leads to if it does so before it comes to the seed. -/
theorem failed_cases (hrun : (begin w.edition).run who w = (.ok (.error f), v)) :
    (w.claimed = true ∧ f = .alreadyInitialized ∧ v = w) ∨
    (w.claimed = false ∧ (w.edition = .legacy ∧ w.startCode ≠ 1) ∧
      f = .refused (w.complaints who) ∧ ∃ queues,
        v = ({ w with queues := queues } : World).see [.call (.startHost w.startCode)]) ∨
    w.claimed = false ∧ ¬ (w.edition = .legacy ∧ w.startCode ≠ 1) ∧ w.seeded = false ∧
      f = .noEntropy := by
  have hends : ∀ {f' v'}, (begin w.edition).run who w = (.ok (.error f'), v') → f = f' ∧ v = v' := by
    intro f' v' hrun'
    obtain ⟨hf, hv⟩ := Prod.mk.inj (hrun.symm.trans hrun')
    exact ⟨Except.error.inj (Except.ok.inj hf), hv⟩
  cases hc : w.claimed with
  | true => exact .inl ⟨rfl, hends (run_begin_of_claimed hc _ who)⟩
  | false =>
    by_cases hcode : w.edition = .legacy ∧ w.startCode ≠ 1
    · obtain ⟨queues, hrun'⟩ := run_begin_of_refused hc hcode.2 who
      rw [← hcode.1] at hrun'
      obtain ⟨hf, hv⟩ := hends hrun'
      exact .inr (.inl ⟨rfl, hcode, hf, queues, hc ▸ hv⟩)
    · have hload : w.edition = .legacy → w.startCode = 1 :=
        fun he => Decidable.byContradiction fun hne => hcode ⟨he, hne⟩
      obtain ⟨h, u, hfree, hinstall⟩ := install_ways who w w.edition
      obtain ⟨hfails, hgoes, -⟩ := run_ways hc hload hfree hinstall who
      cases hs : w.seeded with
      | false =>
        rw [World.setSeeded, ← hs] at hfails
        exact .inr (.inr ⟨rfl, hcode, rfl, (hends hfails).1⟩)
      | true =>
        rw [World.setSeeded, ← hs] at hgoes
        exact nomatch (Prod.mk.inj (hrun.symm.trans hgoes)).1

/-- The reason that a call gives is the one that there is. -/
theorem failure?_of_run (hrun : (begin w.edition).run who w = (.ok (.error f), v)) :
    w.failure? who = some f := by
  unfold World.failure?
  rcases failed_cases hrun with ⟨hc, rfl, -⟩ | ⟨hc, hcode, rfl, -⟩ | ⟨hc, hcode, hs, rfl⟩
  · rw [if_pos hc]
  · rw [hc, if_neg Bool.false_ne_true, if_pos hcode]
  · rw [hc, if_neg Bool.false_ne_true, if_neg hcode, hs, if_neg Bool.false_ne_true]

end Session

/-! ## what is left behind -/

/-- The table, what registries hold to lock with, and the claim of the session are as they were. -/
structure World.Untouched (w v : World) : Prop where
  table : v.table = w.table
  /-- a table has a number of its own, so it is the same one -/
  number : w.isInstalled = true → v.generation = w.generation
  locking : ∀ r, v.locking r = w.locking r
  claimed : v.claimed = w.claimed

namespace World

theorem untouched_self (w : World) : w.Untouched w := ⟨rfl, fun _ => rfl, fun _ => rfl, rfl⟩

theorem Untouched.of_stock (h : w.Untouched v) (hu : u.stock = v.stock) : w.Untouched u where
  table := (eq_of_stock World.table (fun _ => rfl) hu).trans h.table
  number := fun hin => (eq_of_stock World.generation (fun _ => rfl) hu).trans (h.number hin)
  locking := fun r => (eq_of_stock (World.locking · r) (fun _ => rfl) hu).trans (h.locking r)
  claimed := (eq_of_stock World.claimed (fun _ => rfl) hu).trans h.claimed

theorem Untouched.unclaim (h : (w.setClaimed true).Untouched v) (hc : w.claimed = false) :
    w.Untouched (v.setClaimed false) :=
  ⟨h.table, h.number, h.locking, hc.symm⟩

/-- Handles own what they owned before. -/
theorem Untouched.isCurrent (h : w.Untouched v) (x : Handle) : x.isCurrent v = x.isCurrent w := by
  have hin : v.isInstalled = w.isInstalled := congrArg Option.isSome h.table
  rw [Handle.isCurrent, Handle.isCurrent, hin]
  cases hw : w.isInstalled with
  | true => rw [h.number hw]
  | false => rw [Bool.and_false, Bool.and_false]

/-- A table that has come where there was nothing, and has gone again. -/
theorem IsVacant.untouched (h : w.IsVacant r) : w.Untouched ((w.equip r).strip r) where
  table := by rw [strip_eq, h.table]
  number := fun hin => by
    rw [isInstalled, h.table] at hin
    exact absurd hin Bool.false_ne_true
  locking := by
    intro r'
    show (((w.equip r).strip r).holds r').locking = (w.holds r').locking
    rw [holds_strip, holds_equip]
    by_cases hr : r' = r
    · rw [if_pos hr, hr]
      exact h.locking.symm
    · rw [if_neg hr, if_neg fun h => hr h.1]
  claimed := by rw [strip_eq, equip_eq]

/-- A bring-up that fails takes back what it has made, and nothing that was there. -/
theorem untouched_bringUp (h : w.bringUp.2 = false) : w.Untouched w.bringUp.1 := by
  unfold bringUp at h ⊢
  split
  · exact w.untouched_self
  rename_i hcode
  rw [if_neg hcode] at h
  split
  · rename_i hs
    rw [if_pos hs] at h
    exact nomatch h
  · show w.Untouched (if _ then _ else _)
    split
    · rename_i hv
      exact hv.untouched
    · exact w.untouched_self

end World

namespace Session

theorem untouched_of_run (hrun : (begin w.edition).run who w = (.ok (.error f), v)) :
    w.Untouched v := by
  obtain ⟨x, ⟨v', hrun', hstock⟩, hx⟩ := begin_yields (rfl : w.edition = w.edition) who
  obtain ⟨hf, rfl⟩ := Prod.mk.inj (hrun.symm.trans hrun')
  rw [← Except.ok.inj hf] at hx
  refine World.Untouched.of_stock ?_ hstock
  unfold World.beginSession
  cases hc : w.claimed with
  | true => exact w.untouched_self
  | false =>
    rw [hc] at hx
    have hdown : (w.setClaimed true).bringUp.2 = false := hx.symm
    rw [if_neg Bool.false_ne_true, hdown]
    exact (World.untouched_bringUp hdown).unclaim hc

/-- A call that fails before it comes to the table has started the host library, if that. -/
theorem early_of_run (hrun : (begin w.edition).run who w = (.ok (.error f), v))
    (hne : f ≠ .noEntropy) : v.generation = w.generation ∧ v.slots = w.slots ∧
      ∃ es, v.trace = w.trace ++ es ∧ ∀ x ∈ es, x = .call (.startHost w.startCode) := by
  rcases failed_cases hrun with ⟨-, -, rfl⟩ | ⟨-, -, -, queues, rfl⟩ | ⟨-, -, -, hf⟩
  · exact ⟨rfl, rfl, [], (List.append_nil _).symm, fun _ hx => absurd hx List.not_mem_nil⟩
  · exact ⟨rfl, rfl, _, rfl, fun _ hx => List.mem_singleton.mp hx⟩
  · exact absurd hf hne

/-- A call that fails before it comes to the table does not have to wait for others. -/
theorem isUnhindered_of_early_run (hrun : (begin w.edition).run who w = (.ok (.error f), v))
    (hne : f ≠ .noEntropy) : (begin w.edition).IsUnhindered who w := by
  rcases failed_cases hrun with ⟨hc, -⟩ | ⟨hc, ⟨he, hcode⟩, -⟩ | ⟨-, -, -, hf⟩
  · refine isUnhindered_step.mpr ⟨rfl, ?_⟩
    show (if w.claimed.not then _ else _ : Program _).IsUnhindered _ _
    rw [hc]
    exact isUnhindered_done _
  · rw [he]
    refine isUnhindered_step.mpr ⟨rfl, ?_⟩
    show (if w.claimed.not then _ else _ : Program _).IsUnhindered _ _
    rw [hc]
    obtain ⟨queues, hstart⟩ := run_start_of_refused (w := w.setClaimed true) hcode who
    have hasked : (start .legacy).IsUnhindered who (w.setClaimed true) := by
      refine isUnhindered_step.mpr ⟨rfl, ?_⟩
      show (if w.startCode = 1 then _ else _ : Program _).IsUnhindered _ _
      rw [if_neg hcode]
      exact isUnhindered_step.mpr ⟨rfl, isUnhindered_done _⟩
    have hup : (bringUp .legacy).IsUnhindered who (w.setClaimed true) :=
      hasked.bind_of_run hstart (isUnhindered_done _)
    exact hup.bind_of_run (run_bringUp_of_error hstart)
      (isUnhindered_step.mpr ⟨rfl, isUnhindered_done _⟩)
  · exact absurd hf hne

theorem isUnhindered_of_run (hrun : (begin w.edition).run who w = (.ok (.error f), v))
    (hfree : f = .noEntropy → w.lifecycle = none) :
    (Operation.beginSession.program w.edition).IsUnhindered who w := by
  by_cases hf : f = .noEntropy
  · have hop : ∀ r, Operation.beginSession ≠ .teardown r := fun _ h => Operation.noConfusion h
    exact Operation.isUnhindered hop (hfree hf) _ _
  · refine (isUnhindered_of_early_run hrun hf).bind fun x _ _ => ?_
    cases x with
    | ok s => exact isUnhindered_done _
    | error f => exact isUnhindered_done _

end Session

namespace Workshop

variable {s : Workshop} {t : Thread}

/-- **Nothing is left behind by a session that could not be begun.**  In any state, a thread that is
free asks for a session, nobody comes between, and the call fails.  (If it fails for want of a seed
it comes to the table, so nobody may be at work on tables.)  Then it gives the reason that there is,
and comes back.  The table is the same one as before with the same locks taken, or there is still
none; registries hold the locking callbacks that they held; handles and sessions are those that were
alive, and own what they owned.  A call that fails before it comes to the table changes neither the
number of tables nor any slot, and makes no call but the one that starts the host library. -/
theorem failed_session_leaves_nothing (hfree : s.isFree t = true)
    (hfail : ((Session.begin s.world.edition).run t s.world).1 = .ok (.error f))
    (hlock : f = .noEntropy → s.world.lifecycle = none) :
    s.world.failure? t = some f ∧
    ∃ n s', run (Move.inARow t .beginSession n) s = .ok s' ∧
      (Session.begin s.world.edition).run t s.world = (.ok (.error f), s'.world) ∧
      s'.errand = s.errand ∧ s'.live = s.live ∧ s.world.Untouched s'.world ∧
      (∀ c ∈ s.live, ∀ t', s'.ask t' c = s.ask t' c) ∧
      (f ≠ .noEntropy → s'.world.generation = s.world.generation ∧
        s'.world.slots = s.world.slots ∧ ∃ es, s'.world.trace = s.world.trace ++ es ∧
          ∀ x ∈ es, x = .call (.startHost s.world.startCode)) := by
  obtain ⟨v, hrun⟩ : ∃ v, (Session.begin s.world.edition).run t s.world = (.ok (.error f), v) :=
    ⟨_, Prod.ext hfail rfl⟩
  have hall : (Operation.beginSession.program s.world.edition).run t s.world
      = (.ok .refusal, v) := by
    refine (run_bind t (Session.begin s.world.edition) _ s.world).trans ?_
    rw [hrun]
    rfl
  obtain ⟨n, s', hmoves, hworld, herrand, hlive⟩ := run_inARow (o := .beginSession) hfree rfl
    (Session.isUnhindered_of_run hrun hlock)
  rw [hall] at hworld hlive
  obtain rfl : s'.world = v := hworld
  have huntouched := Session.untouched_of_run hrun
  refine ⟨Session.failure?_of_run hrun, n, s', hmoves, hrun, herrand,
    hlive.trans (List.append_nil _), huntouched, fun c _ t' => ?_, Session.early_of_run hrun⟩
  rw [ask_eq_compare, ask_eq_compare]
  exact congrArg Except.ok (huntouched.isCurrent c.handle)

/-- A handle has a table, a worker has taken a lock of it, and there is no seed. -/
def unseeded : List Move := Move.inARow .main (.newHandle (.recorder 0)) 12 ++
  [.call (.worker 0) (.recorder 0) 1 1 0 0, .outside (.seed false)]

theorem failed_session_leaves_nothing_unseeded : ∃ s,
    run unseeded (initial .legacy (fun _ => 2) 3) = .ok s ∧
    s.world.failure? .main = some .noEntropy ∧ s.world.table.map (·.isHeld 1) = some true ∧
    s.live.map (s.ask .main) = [.ok true] ∧
    ∃ n s', run (Move.inARow .main .beginSession n) s = .ok s' ∧ s'.errand .main = none ∧
      s'.world.table = s.world.table ∧ s'.live.map (s'.ask .main) = [.ok true] := by
  have hseen : (run unseeded (initial .legacy (fun _ => 2) 3)).map (fun s => (s.isFree .main,
      ((Session.begin s.world.edition).run .main s.world).1, s.world.lifecycle,
      s.world.table.map (·.isHeld 1), s.live.map (s.ask .main))) =
      .ok (true, .ok (.error .noEntropy), none, some true, [.ok true]) := by
    cbv
  obtain ⟨s, hr, hseen⟩ := exists_of_map_eq_ok hseen
  simp only [Prod.mk.injEq] at hseen
  obtain ⟨hfree, hfail, hlock, hheld, hask⟩ := hseen
  obtain ⟨hwhy, n, s', hmoves, -, hsame, hlive, huntouched, hasks, -⟩ :=
    failed_session_leaves_nothing hfree hfail fun _ => hlock
  refine ⟨s, hr, hwhy, hheld, hask, n, s', hmoves, ?_, huntouched.table, ?_⟩
  · rw [hsame, errand_of_isFree hfree]
  · rw [hlive, ← hask]
    exact List.map_congr_left fun c hc => hasks c hc .main

end Workshop

end CallbackLocks
