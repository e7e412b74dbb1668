import CallbackLocks.Proofs.Alone.Effects
import CallbackLocks.Proofs.Concert.Courses
import CallbackLocks.Proofs.Concert.Serial

/-!
# A bring-up that fails is a session that ends at once

Two ways lead back from a bring-up.  If there is no seed, what was set up is undone before the call
returns; if there is one, the end of the session undoes it.  The two are written down twice, and
agree.

* `World.setSeeded`    the random number generator has a seed, or has none
* `World.called`       the calls that the trace shows, in order
* `Program.accesses`   all that a run does, calls that leave no trace among it
* `World.Agree`        two states tell the same to whoever looks neither at the seed nor at queues
* `Program.Along.history_of_agree`   in such states a call about tables goes the same way
* `Session.accesses_bringUp`, `Session.run_bringUp`   a bring-up, up to its one branch
* `Session.accesses_ways`, `Session.run_ways`   both ways written out
* `Session.ways_agree`   **they make the same calls and lead to the same state**
-/

namespace CallbackLocks

open Program

variable {w u v : World} {e : Edition} {h : Handle} {who : Thread}

/-! ## the seed -/

def Event.isCall : Event → Bool
  | .call _ => true
  | .log _ => false

namespace World

/-- the state with a seed for the random number generator, or without -/
def setSeeded (w : World) (seeded : Bool) : World := { w with seeded := seeded }

@[simp] theorem seeded_setSeeded (w : World) (seeded : Bool) :
    (w.setSeeded seeded).seeded = seeded := rfl

/-- The calls that have been made of registries and of the host library, in order, as the trace
shows them.  It does not show the start of a modern host nor that a seed was asked for:
`Program.accesses` has these too. -/
def called (w : World) : List Event := w.trace.filter Event.isCall

/-- the state without the seed, and without what has been seen -/
def bare (w : World) : World := { w with seeded := false, trace := [] }

/-- the state after the host library has been started, and has started -/
def started (w : World) (who : Thread) : Edition → World
  | .modern => w
  | .legacy => (w.setQueue who ((w.queues who).pushAll w.startErrors)).see
      [.call (.startHost w.startCode), .call .loadErrorStrings]

theorem called_see (w : World) (es : List Event) :
    (w.see es).called = w.called ++ es.filter Event.isCall := by
  rw [see_eq]
  exact List.filter_append ..

theorem see_setSeeded (w : World) (seeded : Bool) (es : List Event) :
    (w.setSeeded seeded).see es = (w.see es).setSeeded seeded := by
  rw [see_eq, see_eq]
  rfl

theorem register_setSeeded (w : World) (seeded : Bool) (r : Registry) (f : Option LockCallback) :
    (w.setSeeded seeded).register r f = (w.register r f).setSeeded seeded := by
  show (if w.keeps r then _ else _) = _
  unfold register
  split <;> rfl

theorem registerId_setSeeded (w : World) (seeded : Bool) (r : Registry) (f : Option IdCallback) :
    (w.setSeeded seeded).registerId r f = (w.registerId r f).setSeeded seeded := by
  show (if w.keeps r then _ else _) = _
  unfold registerId
  split <;> rfl

theorem equip_setSeeded (w : World) (seeded : Bool) (r : Registry) :
    (w.setSeeded seeded).equip r = (w.equip r).setSeeded seeded := by
  rw [equip_eq, equip_eq]
  rfl

theorem strip_setSeeded (w : World) (seeded : Bool) (r : Registry) :
    (w.setSeeded seeded).strip r = (w.strip r).setSeeded seeded := by
  rw [strip_eq, strip_eq]
  rfl

theorem lifecycle_equip (w : World) (r : Registry) : (w.equip r).lifecycle = w.lifecycle := by
  rw [equip_eq]

theorem lifecycle_see (w : World) (es : List Event) : (w.see es).lifecycle = w.lifecycle := by
  rw [see_eq]

end World

namespace Handle

theorem effect_setSeeded (h : Handle) (w : World) (seeded : Bool) :
    h.effect (w.setSeeded seeded) = (h.effect w).setSeeded seeded := by
  show (if h.isCurrent w then _ else _) = _
  unfold effect
  split
  · exact w.strip_setSeeded seeded h.registry
  · rfl

/-- A call of install for the host returns a handle, and does not look at the seed. -/
theorem install_host_seeded (who : Thread) (w : World) : ∃ (h : Handle) (u : World),
    u.lifecycle = none ∧ ∀ seeded,
      (install .host).run who (w.setSeeded seeded) = (.ok h, u.setSeeded seeded) := by
  cases htable : w.table with
  | some table =>
    refine ⟨⟨.host, none⟩, w.freed.see [.log .tablePresent], rfl, fun seeded => ?_⟩
    rw [run_install, Lifecycle.run_install_of_table (w := w.setSeeded seeded) htable]
    rfl
  | none =>
    cases hlocking : w.locking .host with
    | some f =>
      refine ⟨⟨.host, none⟩, w.freed.see [.call (.readLocking .host), .log .callbackPresent], rfl,
        fun seeded => ?_⟩
      rw [run_install,
        Lifecycle.run_install_of_callback (w := w.setSeeded seeded) (r := .host) htable hlocking]
      rfl
    | none =>
      refine ⟨⟨.host, some (w.generation + 1)⟩, (w.freed.equip .host).see
        (.call (.readLocking .host) :: .call (.countLocks .host) ::
          registration .host (w.lockCount .host)),
        (World.lifecycle_see _ _).trans (World.lifecycle_equip _ _), fun seeded => ?_⟩
      rw [run_install, Lifecycle.run_install_of_vacant (w := w.setSeeded seeded) (r := .host)
        ⟨htable, hlocking, World.lockCount_host _⟩, ← World.see_setSeeded,
        ← World.equip_setSeeded]
      rfl

end Handle

/-! ## what a run does -/

def Access.isLog : Access → Bool
  | log _ => true
  | _ => false

namespace Program

variable {α β : Type} {p : Program α} {f : α → Program β} {x : α} {t : Thread}

/-- All that a run does that nobody comes between, but for what it writes to the log. -/
def accesses (who : Thread) (p : Program α) (w : World) : List Access :=
  ((p.history who w).map Act.access).filter fun a => !a.isLog

theorem accesses_bind_of_run (h : p.run who w = (.ok x, v)) :
    (p.bind f).accesses who w = p.accesses who w ++ (f x).accesses who v := by
  rw [accesses, history_bind, h, List.map_append, List.filter_append]
  rfl

theorem accesses_step {a : Access} {next : a.Reply → Program α} (ha : a.isLog = false) :
    (step a next).accesses who w
      = a :: (next (a.perform who w).1).accesses who (a.perform who w).2 := by
  rw [accesses, history_step, List.map_cons, List.filter_cons_of_pos (by rw [ha]; rfl)]
  rfl

end Program

/-- The two states tell the same to whoever looks neither at the seed nor at the queues. -/
def World.Agree (w v : World) : Prop := (w.setSeeded false).stock = (v.setSeeded false).stock

theorem World.Agree.eq_of {γ : Type} (h : w.Agree v) (f : World → γ)
    (hf : ∀ w, f (w.setSeeded false).stock = f w) : f w = f v :=
  (hf w).symm.trans ((congrArg f h).trans (hf v))

theorem World.agree_see (w : World) (es : List Event) : (w.see es).Agree w := by
  rw [Agree, ← see_setSeeded, stock_see]

namespace Access

theorem perform_setSeeded (a : Access) (who : Thread) (w : World) (seeded : Bool) :
    (a.perform who (w.setSeeded seeded)).2 = (a.perform who w).2.setSeeded seeded := by
  cases a with
  | setLocking r f =>
    show World.saw (World.register _ _ _) _ = World.saw (World.setSeeded (World.register _ _ _) _) _
    rw [w.register_setSeeded]
    rfl
  | setId r f =>
    show World.saw (World.registerId _ _ _) _
      = World.saw (World.setSeeded (World.registerId _ _ _) _) _
    rw [w.registerId_setSeeded]
    rfl
  | _ => rfl

/-- States that agree answer a call about tables alike. -/
theorem reply_of_agree {a : Access} (ha : a.isOfSession = false) (h : w.Agree v) (who t : Thread) :
    (a.perform who w).1 = (a.perform t v).1 := by
  cases a with
  | loadTable => exact h.eq_of World.tableSize fun _ => rfl
  | readGeneration => exact h.eq_of World.generation fun _ => rfl
  | countLocks r => exact h.eq_of (World.lockCount · r) fun _ => rfl
  | readLocking r => exact h.eq_of (World.locking · r) fun _ => rfl
  | claim | readSeeded | startHost | drainErrors => exact nomatch ha
  | _ => rfl

/-- Every access leads to states that agree from states that do. -/
theorem agree_perform (a : Access) (h : w.Agree v) (who t : Thread) :
    (a.perform who w).2.Agree (a.perform t v).2 := by
  rw [World.Agree, ← perform_setSeeded, ← perform_setSeeded, World.stock_perform,
    World.stock_perform, h]

end Access

/-- **In states that agree a call about tables goes the same way**, whoever makes it. -/
theorem Program.Along.history_of_agree {α : Type} {p : Program α} {post : Unit → α → Prop}
    (hp : p.Along .plain post ()) (h : w.Agree v) (who t : Thread) :
    p.history who w = p.history t v := by
  induction p generalizing w v with
  | done | abandon => rfl
  | step a next ih =>
    rw [history_step, history_step, Access.reply_of_agree hp.1 h who t,
      ih _ (hp.2 t v () trivial) (a.agree_perform h who t)]

theorem Program.Along.accesses_of_agree {α : Type} {p : Program α} {post : Unit → α → Prop}
    (hp : p.Along .plain post ()) (h : w.Agree v) (who t : Thread) :
    p.accesses who w = p.accesses t v := by
  rw [accesses, hp.history_of_agree h who t]
  rfl

/-! ## the two ways -/

namespace Session

theorem run_start (hload : e = .legacy → w.startCode = 1) :
    (start e).run who w = (.ok (.ok ()), w.started who e) := by
  cases e with
  | modern => rfl
  | legacy =>
    exact run_step_of (a := .startHost) (hload rfl)

/-- The host library drops what it has loaded, and is started, the same way in every state. -/
theorem accesses_cleanUp (e : Edition) (who t : Thread) (w v : World) :
    (cleanUp e).accesses who w = (cleanUp e).accesses t v := by
  cases e <;> rfl

theorem accesses_start (hw : e = .legacy → w.startCode = 1) (hv : e = .legacy → v.startCode = 1)
    (who : Thread) : (start e).accesses who w = (start e).accesses who v := by
  have hlegacy : ∀ u : World, u.startCode = 1 →
      (start .legacy).accesses who u = [.startHost, .loadErrorStrings] := by
    intro u hu
    rw [start, bind_eq, access_eq, bind_step, accesses_step rfl]
    show Access.startHost :: (if u.startCode = 1 then _ else _ : Program _).accesses _ _ = _
    rw [if_pos hu]
    rfl
  cases e with
  | modern => rfl
  | legacy => rw [hlegacy w (hw rfl), hlegacy v (hv rfl)]

theorem accesses_seed (who : Thread) (w : World) : seed.accesses who w = [.readSeeded] := by
  rw [seed, bind_eq, access_eq, bind_step, accesses_step rfl]
  show Access.readSeeded :: (if w.seeded then _ else _ : Program _).accesses _ _ = _
  split
  · rfl
  · rfl

/-- A bring-up has one branch: it returns its handle if there is a seed, and undoes what it has set
up if there is none. -/
theorem run_bringUp (hload : e = .legacy → w.startCode = 1)
    (hinstall : (Handle.install .host).run who (w.started who e) = (.ok h, u))
    (hfree : u.lifecycle = none) : (bringUp e).run who w =
      if u.seeded then (.ok (.ok h), u.see [.log .seeded])
      else (.ok (.error .noEntropy), (h.effect u).see (sweeping u e ++ h.parting u)) := by
  refine (run_bind who (start e) _ w).trans ?_
  rw [run_start hload]
  refine (run_bind who (Handle.install .host) _ _).trans ?_
  rw [hinstall]
  refine (run_bind who seed _ u).trans ?_
  cases hseeded : u.seeded with
  | true =>
    have hseed : seed.run who u = (.ok (.ok ()), u.see [.log .seeded]) :=
      run_step_of (a := .readSeeded) hseeded
    rw [hseed]
    rfl
  | false =>
    have hseed : seed.run who u = (.ok (.error .noEntropy), u) :=
      run_step_of (a := .readSeeded) hseeded
    have hfree' : (u.see (sweeping u e)).lifecycle = none :=
      (World.lifecycle_see _ _).trans hfree
    rw [hseed]
    refine (run_bind who (cleanUp e) _ u).trans ?_
    rw [run_cleanUp]
    refine (run_bind who h.drop _ _).trans ?_
    rw [Handle.run_drop hfree', Handle.effect_see, Handle.parting_see, ← World.see_append]
    rfl

theorem accesses_bringUp (hload : e = .legacy → w.startCode = 1)
    (hinstall : (Handle.install .host).run who (w.started who e) = (.ok h, u))
    (hfree : u.lifecycle = none) : (bringUp e).accesses who w = (start e).accesses who w ++
      ((Handle.install .host).accesses who (w.started who e) ++ (.readSeeded ::
        if u.seeded then []
        else (cleanUp e).accesses who u ++ h.drop.accesses who (u.see (sweeping u e)))) := by
  refine (accesses_bind_of_run (run_start hload)).trans (congrArg _ ?_)
  refine (accesses_bind_of_run hinstall).trans (congrArg _ ?_)
  cases hseeded : u.seeded with
  | true =>
    have hseed : seed.run who u = (.ok (.ok ()), u.see [.log .seeded]) :=
      run_step_of (a := .readSeeded) hseeded
    refine (accesses_bind_of_run hseed).trans ?_
    rw [accesses_seed]
    rfl
  | false =>
    have hseed : seed.run who u = (.ok (.error .noEntropy), u) :=
      run_step_of (a := .readSeeded) hseeded
    refine (accesses_bind_of_run hseed).trans ?_
    rw [accesses_seed]
    refine congrArg (_ :: ·) ((accesses_bind_of_run (run_cleanUp e who u)).trans ?_)
    have hdrop := Handle.run_drop ((World.lifecycle_see u (sweeping u e)).trans hfree) h who
    refine congrArg _ ((accesses_bind_of_run hdrop).trans ?_)
    exact List.append_nil _

theorem accesses_begin (hfirst : w.claimed = false) {x : Except Failure Handle}
    (hup : (bringUp e).run who (w.setClaimed true) = (.ok x, v)) :
    (begin e).accesses who w = .claim :: ((bringUp e).accesses who (w.setClaimed true) ++
      if x.isOk then [] else [.unclaim]) := by
  rw [begin, bind_eq, access_eq, bind_step, accesses_step rfl]
  show Access.claim :: (if !w.claimed then _ else _ : Program _).accesses _ _ = _
  rw [hfirst]
  refine congrArg _ ((accesses_bind_of_run hup).trans ?_)
  cases x with
  | ok h => rfl
  | error f => rfl

theorem accesses_finish (hfree : v.lifecycle = none) (e : Edition) (h : Handle) (t : Thread) :
    (finish e ⟨h⟩).accesses t v = (cleanUp e).accesses t v ++
      (h.drop.accesses t (v.see (sweeping v e)) ++ [.unclaim]) := by
  have hrelease := Handle.run_release
    ((World.lifecycle_see v (sweeping v e)).trans hfree) h t
  refine (accesses_bind_of_run (run_cleanUp e t v)).trans (congrArg _ ?_)
  refine (accesses_bind_of_run hrelease).trans ?_
  have hdrop : h.drop.accesses t (v.see (sweeping v e)) = h.release.accesses t _ ++ [] :=
    accesses_bind_of_run hrelease
  rw [hdrop, List.append_nil]
  rfl

theorem run_begin_of_ok (hfirst : w.claimed = false)
    (hup : (bringUp e).run who (w.setClaimed true) = (.ok (.ok h), v)) :
    (begin e).run who w = (.ok (.ok ⟨h⟩), v.see [.log .begun]) := by
  refine (run_step_of (a := .claim) (congrArg not hfirst)).trans ?_
  refine (run_bind who (bringUp e) _ (w.setClaimed true)).trans ?_
  rw [hup]
  rfl

theorem run_begin_of_error {f : Failure} (hfirst : w.claimed = false)
    (hup : (bringUp e).run who (w.setClaimed true) = (.ok (.error f), v)) :
    (begin e).run who w = (.ok (.error f), v.setClaimed false) := by
  refine (run_step_of (a := .claim) (congrArg not hfirst)).trans ?_
  refine (run_bind who (bringUp e) _ (w.setClaimed true)).trans ?_
  rw [hup]
  rfl

/-- With a seed or without, the host library is started and the same handle is got. -/
theorem install_ways (who : Thread) (w : World) (e : Edition) : ∃ (h : Handle) (u : World),
    u.lifecycle = none ∧ ∀ seeded,
      (Handle.install .host).run who (((w.setSeeded seeded).setClaimed true).started who e)
        = (.ok h, u.setSeeded seeded) := by
  obtain ⟨h, u, hfree, hinstall⟩ :=
    Handle.install_host_seeded who ((w.setClaimed true).started who e)
  refine ⟨h, u, hfree, fun seeded => ?_⟩
  rw [← hinstall]
  cases e with
  | modern => rfl
  | legacy => rfl

section
variable (hfirst : w.claimed = false) (hload : e = .legacy → w.startCode = 1)
  (hfree : u.lifecycle = none) (hinstall : ∀ seeded, (Handle.install .host).run who
    (((w.setSeeded seeded).setClaimed true).started who e) = (.ok h, u.setSeeded seeded))
include hfirst hload hfree hinstall

/-- Both ways written out.  They part at `u`, where the host library has been started and there is
a handle, and do the same from there. -/
theorem run_ways (t : Thread) :
    (begin e).run who (w.setSeeded false) = (.ok (.error .noEntropy),
      ((h.effect u).see (sweeping u e ++ h.parting u)).setSeeded false |>.setClaimed false) ∧
    (begin e).run who (w.setSeeded true) = (.ok (.ok ⟨h⟩),
      (u.see [.log .seeded, .log .begun]).setSeeded true) ∧
    (finish e ⟨h⟩).run t ((u.see [.log .seeded, .log .begun]).setSeeded true) = (.ok (),
      (((h.effect u).see [.log .seeded, .log .begun]).see
        (sweeping u e ++ h.parting u ++ [.log .ended])).setSeeded true |>.setClaimed false) := by
  have hfails := run_bringUp (w := (w.setSeeded false).setClaimed true) hload (hinstall false) hfree
  have hgoes := run_bringUp (w := (w.setSeeded true).setClaimed true) hload (hinstall true) hfree
  refine ⟨?_, ?_, ?_⟩
  · rw [run_begin_of_error (w := w.setSeeded false) hfirst hfails, Handle.effect_setSeeded,
      World.see_setSeeded]
    rfl
  · rw [run_begin_of_ok (w := w.setSeeded true) hfirst hgoes, ← World.see_append,
      World.see_setSeeded]
    rfl
  · let begun := (u.setSeeded true).see [.log .seeded, .log .begun]
    have hend := run_finish (w := begun) hfree e ⟨h⟩ t
    have hclean : sweeping begun e = sweeping u e := by cases e <;> rfl
    rw [hclean, Handle.parting_see, Handle.effect_see, Handle.effect_setSeeded] at hend
    refine hend.trans (congrArg (Prod.mk _) ?_)
    rw [World.see_eq _ (_ ++ _), World.see_eq _ (_ ++ _)]
    rfl

/-- What is done on the two ways.  The host library and the registries are asked for the same, the
seed is asked for once, and the handle goes the same way whoever gives it up. -/
theorem accesses_ways (t : Thread) :
    (begin e).accesses who (w.setSeeded false) = (begin e).accesses who (w.setSeeded true) ++
      (finish e ⟨h⟩).accesses t ((u.see [.log .seeded, .log .begun]).setSeeded true) := by
  let begun : World := (u.see [.log .seeded, .log .begun]).setSeeded true
  have hfree' : begun.lifecycle = none := (World.lifecycle_see u _).trans hfree
  have hstarted : (start e).accesses who ((w.setSeeded false).setClaimed true)
      = (start e).accesses who ((w.setSeeded true).setClaimed true) :=
    accesses_start (w := (w.setSeeded false).setClaimed true)
      (v := (w.setSeeded true).setClaimed true) hload hload who
  have hinstalled : (Handle.install .host).accesses who
      (((w.setSeeded false).setClaimed true).started who e) = (Handle.install .host).accesses who
        (((w.setSeeded true).setClaimed true).started who e) := by
    refine Along.accesses_of_agree (Handle.install_along
      (Watch.ignores_install Watch.ignores_plain) (.inl rfl)) ?_ who who
    cases e with
    | modern => rfl
    | legacy => rfl
  have hdropped : h.drop.accesses who ((u.setSeeded false).see (sweeping (u.setSeeded false) e))
      = h.drop.accesses t (begun.see (sweeping begun e)) := by
    refine Along.accesses_of_agree
      (h.drop_along (Watch.ignores_removal Watch.ignores_plain)) ?_ who t
    have hbegun : begun.Agree u := World.agree_see u [.log .seeded, .log .begun]
    exact (World.agree_see _ _).trans (hbegun.symm.trans (World.agree_see begun _).symm)
  have hfails := accesses_begin (w := w.setSeeded false) hfirst <|
    run_bringUp (w := (w.setSeeded false).setClaimed true) hload (hinstall false) hfree
  have hgoes := accesses_begin (w := w.setSeeded true) hfirst <|
    run_bringUp (w := (w.setSeeded true).setClaimed true) hload (hinstall true) hfree
  rw [accesses_bringUp (w := (w.setSeeded false).setClaimed true) hload (hinstall false) hfree,
    hstarted, hinstalled, hdropped] at hfails
  rw [accesses_bringUp (w := (w.setSeeded true).setClaimed true) hload (hinstall true) hfree]
    at hgoes
  rw [hfails, hgoes, accesses_finish hfree', accesses_cleanUp e who t (u.setSeeded false) begun]
  simp [Except.isOk, Except.toBool]

end

/-- **A bring-up that finds no seed does what a session does that ends at once.**  But for the lines
of the log it makes the same accesses in the same order, whoever ends the session: the calls of
registries and of the host library, those that the trace does not show among them.  The trace has
the same calls, and but for the seed and the log the states at the end are the same. -/
theorem ways_agree (hfirst : w.claimed = false)
    (hload : w.edition = .legacy → w.startCode = 1) (who t : Thread) :
    ∃ (failed begun ended : World) (x : Session),
      (begin w.edition).run who (w.setSeeded false) = (.ok (.error .noEntropy), failed) ∧
      (begin w.edition).run who (w.setSeeded true) = (.ok (.ok x), begun) ∧
      (finish w.edition x).run t begun = (.ok (), ended) ∧
      (begin w.edition).accesses who (w.setSeeded false) =
        (begin w.edition).accesses who (w.setSeeded true) ++
          (finish w.edition x).accesses t begun ∧
      failed.called = ended.called ∧ failed.bare = ended.bare := by
  obtain ⟨h, u, hfree, hinstall⟩ := install_ways who w w.edition
  obtain ⟨hfails, hbegins, hends⟩ := run_ways hfirst hload hfree hinstall t
  refine ⟨_, _, _, _, hfails, hbegins, hends, accesses_ways hfirst hload hfree hinstall t, ?_, ?_⟩
  · show World.called (World.see _ _) = World.called (World.see _ _)
    rw [World.called_see, World.called_see, World.called_see, List.filter_append _ [_]]
    show _ = (World.called _ ++ []) ++ (_ ++ [])
    rw [List.append_nil, List.append_nil]
  · rw [← World.see_append, World.see_eq, World.see_eq]
    rfl

/-- A table is there on the way, and our callbacks are at the host. -/
theorem ways_agree_legacy : ∃ failed begun ended : World, ∃ x : Session,
    let w := World.initial .legacy (fun _ => 2) 3
    (begin .legacy).run .main (w.setSeeded false) = (.ok (.error .noEntropy), failed) ∧
    (begin .legacy).run .main (w.setSeeded true) = (.ok (.ok x), begun) ∧
    (finish .legacy x).run (.worker 0) begun = (.ok (), ended) ∧
    (begin .legacy).accesses .main (w.setSeeded false) =
      (begin .legacy).accesses .main (w.setSeeded true) ++
        (finish .legacy x).accesses (.worker 0) begun ∧
    failed.called = ended.called ∧ failed.bare = ended.bare ∧
    begun.table = some (.new 3) ∧ ended.called = List.map Event.call [
      .startHost 1, .loadErrorStrings, .readLocking .host, .countLocks .host,
      .setId .host (some .own) true, .setLocking .host (some .own) true,
      .cleanAlgorithms true, .cleanExtraData, .freeErrorStrings,
      .setId .host none true, .setLocking .host none true] := by
  obtain ⟨failed, begun, ended, x, hfails, hbegins, hends, haccesses, hcalled, hbare⟩ :=
    ways_agree (w := .initial .legacy (fun _ => 2) 3) rfl (fun _ => rfl) .main (.worker 0)
  refine ⟨failed, begun, ended, x, hfails, hbegins, hends, haccesses, hcalled, hbare, ?_, ?_⟩
  · exact congrArg (fun out => out.2.table) hbegins.symm
  · rw [← hcalled]
    exact congrArg (fun out => out.2.called) hfails.symm

end Session

end CallbackLocks
