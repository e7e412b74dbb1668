import CallbackLocks.Proofs.Alone.Calls
import CallbackLocks.Proofs.Contract
import CallbackLocks.Proofs.Runs.Passage
import CallbackLocks.Proofs.Runs.Peaceful

/-!
# What readiness tells

A handle is ready if there is a table, whichever registry it was made for, or if its own registry
holds a callback.  What this tells of its own registry depends on where the table belongs, and on
what others have done to the registry since.

* `Workshop.clearings`   where other parties have cleared a locking slot, and which table was there
* `Workshop.Registered`  unless it is on its way, a table has a callback at its registry, or another
                     party has cleared the slot
* `Workshop.Registered.step`   **every move preserves it**
* `Workshop.readiness_of_run`   **what a handle that is ready can be relied on for**
-/

namespace CallbackLocks

namespace Workshop

open Ledger

variable {s s' : Workshop} {t : Thread} {d : Deed} {f : Thread → Bool}
  {past past' : List (Deed × Registry)}

/-- Another party clears the locking slot of a registry while the table of a call is there. -/
def clearing? (s : Workshop) : Move → Option (Deed × Registry)
  | .outside (.register r none) => s.ledger.origin.map fun m => (m, r)
  | _ => none

/-- the slots that other parties have cleared, each with the call that had made the table -/
def clearings : List Move → Workshop → List (Deed × Registry) := gather clearing?

/-- The registry of the table, if it keeps what is registered, holds a callback, or another party
has cleared its slot since the table came. -/
def IsRegistered (past : List (Deed × Registry)) (s : Workshop) : Prop :=
  ∀ m, s.ledger.origin = some m → s.world.keeps m.operation.registry = true →
    s.world.locking m.operation.registry ≠ none ∨ (m, m.operation.registry) ∈ past

theorem keeps_of_edition {w v : World} (h : w.edition = v.edition) : w.keeps = v.keeps := by
  funext r
  cases r with
  | recorder i => rfl
  | host => simp only [World.keeps, h]

theorem IsRegistered.keep (h : IsRegistered past s) (hpast : past ⊆ past')
    (horigin : s'.ledger.origin = s.ledger.origin) (hedition : s'.world.edition = s.world.edition)
    (hlock : ∀ r, s'.world.locking r = s.world.locking r) : IsRegistered past' s' := by
  intro m hm hk
  rw [horigin] at hm
  rw [keeps_of_edition hedition] at hk
  rw [hlock]
  exact (h m hm hk).imp_right (hpast ·)

/-- Which threads have a table on its way, and that a table is registered unless one has. -/
structure Registered (past : List (Deed × Registry)) (f : Thread → Bool) (s : Workshop) : Prop where
  idle : ∀ t, s.errand t = none → f t = false
  busy : ∀ t e, s.errand t = some e → e.rest.Along .passage (fun b _ => b = false) (f t)
  inside : ∀ t, f t = true → s.world.lifecycle = some t
  slot : (∀ t, f t = false) → IsRegistered past s

theorem registered_initial (edition : Edition) (reported : Nat → Nat) (hostLocks : Int32) :
    Registered [] (fun _ => false) (initial edition reported hostLocks) where
  idle := fun _ _ => rfl
  busy := fun _ _ h => nomatch h
  inside := fun _ h => nomatch h
  slot := fun _ _ h => nomatch h

theorem Registered.start (h : Registered past f s) (hpast : past ⊆ past') {o : Order}
    {op : Operation} (hfree : s.isFree t = true) :
    Registered past' f ({ s with calls := s.calls + 1, live := s.liveAfter o }.setErrand t
      (some ⟨⟨s.calls, op⟩, op.program s.world.edition⟩)) where
  idle := by
    intro t' ht'
    rcases errand_cases ht' with ⟨-, heq⟩ | ⟨-, ht'⟩
    · exact nomatch heq
    · exact h.idle t' ht'
  busy := by
    intro t' e he
    rcases errand_cases he with ⟨rfl, heq⟩ | ⟨-, he⟩
    · rw [← Option.some.inj heq, h.idle t' (errand_of_isFree hfree)]
      exact op.passage_along s.world.edition
    · exact h.busy t' e he
  inside := h.inside
  slot := fun hall => (h.slot hall).keep hpast rfl rfl fun _ => rfl

theorem Registered.leave (h : Registered past f s) (hpast : past ⊆ past') (live : List Holding)
    (hout : f t = false) : Registered past' f ({ s with live := live }.setErrand t none) where
  idle := by
    intro t' ht'
    rcases errand_cases ht' with ⟨rfl, -⟩ | ⟨-, ht'⟩
    · exact hout
    · exact h.idle t' ht'
  busy := by
    intro t' e he
    rcases errand_cases he with ⟨-, heq⟩ | ⟨-, he⟩
    · exact nomatch heq
    · exact h.busy t' e he
  inside := h.inside
  slot := fun hall => (h.slot hall).keep hpast rfl rfl fun _ => rfl

/-- A change of the process that concerns neither the lifecycle lock nor what registries hold. -/
theorem Registered.setWorld (h : Registered past f s) (hpast : past ⊆ past')
    (taken : List (Thread × Nat)) {w : World} (hlife : w.lifecycle = s.world.lifecycle)
    (hedition : w.edition = s.world.edition) (hlock : ∀ r, w.locking r = s.world.locking r) :
    Registered past' f { s.setWorld w with taken := taken } where
  idle := h.idle
  busy := h.busy
  inside := fun t ht => hlife.trans (h.inside t ht)
  slot := fun hall => (h.slot hall).keep hpast rfl hedition hlock

section
variable {a : Access} {next : a.Reply → Program Prize} {b : Bool}

/-- A thread that has a table on its way has the lifecycle lock, and keeps it. -/
theorem Registered.inside_perform (h : Registered past f s) (hs : Sound False s)
    (he : s.errand t = some ⟨d, .step a next⟩) (hen : a.isEnabled s.world = true)
    (hl : Watch.passage.leads (f t) a s.world b) (t' : Thread)
    (ht' : Function.update f t b t' = true) :
    (s.ledger.perform d t a).2.world.lifecycle = some t' := by
  have hadm := hs.admits he hen
  rw [s.ledger.world_perform]
  by_cases htt : t' = t
  · subst htt
    rw [Function.update_self] at ht'
    subst ht'
    by_cases hlife : a.isOnLifecycle = false
    · rw [Access.lifecycle_perform hlife]
      cases a with
      | publishTable size => exact hadm.1
      | setLocking r x =>
        cases x with
        | none => exact hadm
        | some x => exact nomatch hl
      | withdrawTable => exact nomatch hl
      | _ => exact h.inside t' hl.symm
    · cases a with
      | takeLifecycle => rfl
      | freeLifecycle => exact nomatch hl.trans (h.busy t' _ he).1
      | _ => exact absurd rfl hlife
  · rw [Function.update_of_ne htt] at ht'
    have hin := h.inside t' ht'
    by_cases hlife : a.isOnLifecycle = false
    · rw [Access.lifecycle_perform hlife]
      exact hin
    · cases a with
      | takeLifecycle => exact nomatch (Option.isNone_iff_eq_none.mp hen).symm.trans hin
      | freeLifecycle => exact absurd (Option.some.inj (hin.symm.trans hadm.1)) htt
      | _ => exact absurd rfl hlife

/-- A table is no longer on its way when our callback has been registered, or when it has gone. -/
theorem Registered.slot_perform (h : Registered past f s) (hs : Sound False s)
    (he : s.errand t = some ⟨d, .step a next⟩) (hen : a.isEnabled s.world = true)
    (hl : Watch.passage.leads (f t) a s.world b)
    (hall : ∀ t', Function.update f t b t' = false) (rest : Program Prize) :
    IsRegistered past
      ({ s with ledger := (s.ledger.perform d t a).2 }.setErrand t (some ⟨d, rest⟩)) := by
  have hb : b = false := (Function.update_self t b f).symm.trans (hall t)
  subst hb
  have hadm := hs.admits he hen
  have hedition : (s.ledger.perform d t a).2.world.edition = s.world.edition :=
    (congrArg World.edition (s.ledger.world_perform d t a)).trans (edition_perform a t s.world)
  by_cases hpass : a.isOfPassage = false
  · have hold : ∀ t', f t' = false := by
      intro t'
      by_cases htt : t' = t
      · exact htt ▸ (Watch.leads_passage hpass hl).symm
      · exact (Function.update_of_ne htt _ _).symm.trans (hall t')
    refine (h.slot hold).keep (List.Subset.refl _) ?_ hedition fun r => ?_
    · cases a with
      | publishTable | setLocking | withdrawTable => exact nomatch hpass
      | _ => rfl
    · by_cases hq : IsQuiet a = true
      · exact (alike_perform d t s.ledger hq).locking r
      · cases a with
        | publishTable | setLocking | withdrawTable => exact nomatch hpass
        | takeLifecycle | freeLifecycle | countInstall => rfl
        | _ => exact absurd rfl hq
  · cases a with
    | publishTable size => exact nomatch hl
    | withdrawTable => exact fun m hm => nomatch hm
    | setLocking r x =>
      cases x with
      | none => exact nomatch hl
      | some x =>
        cases x with
        | foreign k => exact hadm.elim
        | own =>
          intro m hm hk
          obtain ⟨m', hm', hr⟩ := hadm.2
          obtain rfl := Option.some.inj (hm'.symm.trans hm)
          subst hr
          replace hk : s.world.keeps m'.operation.registry = true :=
            (congrFun (keeps_of_edition hedition) _).symm.trans hk
          refine .inl ?_
          show (s.world.register m'.operation.registry (some .own)).locking _ ≠ none
          rw [World.locking_register _ _ _ _ hk, if_pos rfl]
          exact (nomatch ·)
    | _ => exact absurd rfl hpass

theorem Registered.perform (h : Registered past f s) (hpast : past ⊆ past') (hs : Sound False s)
    (he : s.errand t = some ⟨d, .step a next⟩) (hen : a.isEnabled s.world = true) :
    ∃ f', Registered past' f' ({ s with ledger := (s.ledger.perform d t a).2 }.setErrand t
      (some ⟨d, next (a.perform t s.world).1⟩)) := by
  obtain ⟨b, hl⟩ := Watch.exists_passage (f t) a s.world
  refine ⟨Function.update f t b, {
    idle := ?idle, busy := ?busy, inside := h.inside_perform hs he hen hl,
    slot := fun hall => (h.slot_perform hs he hen hl hall _).keep hpast rfl rfl fun _ => rfl }⟩
  case idle =>
    intro t' ht'
    rcases errand_cases ht' with ⟨-, heq⟩ | ⟨hne, ht'⟩
    · exact nomatch heq
    · exact (Function.update_of_ne hne _ _).trans (h.idle t' ht')
  case busy =>
    intro t' e he'
    rcases errand_cases he' with ⟨rfl, heq⟩ | ⟨hne, he'⟩
    · rw [← Option.some.inj heq, Function.update_self]
      exact (h.busy t' _ he).2 _ s.world b hl
    · rw [Function.update_of_ne hne]
      exact h.busy t' e he'

end

/-- What another party does is on record if it clears the slot of the table's registry. -/
theorem Registered.outside (h : Registered past f s) (o : Outside) :
    Registered (past ++ (s.clearing? (.outside o)).toList) f (s.setWorld (o.apply s.world)) := by
  have hpast : past ⊆ past ++ (s.clearing? (.outside o)).toList := List.subset_append_left _ _
  cases o with
  | register r x =>
    refine { h with inside := fun t ht => ?_, slot := fun hall m hm hk => ?_ }
    · exact (outside_eq (.register r x) s.world).1.trans (h.inside t ht)
    · replace hm : s.ledger.origin = some m := hm
      replace hk : s.world.keeps m.operation.registry = true :=
        (congrFun (keeps_of_edition (edition_outside (.register r x) s.world)) _).symm.trans hk
      show (s.world.register r x).locking m.operation.registry ≠ none ∨ _
      rw [World.locking_register_eq]
      split
      · rename_i hr
        rw [← hr, if_pos hk]
        cases x with
        | some g => exact .inl (nomatch ·)
        | none =>
          refine .inr (List.mem_append_right _ ?_)
          simp only [clearing?, hm, Option.map_some, Option.toList_some, List.mem_singleton]
      · exact (h.slot hall m hm hk).imp_right (hpast ·)
  | registerId r x =>
    exact h.setWorld hpast s.taken (outside_eq (.registerId r x) s.world).1
      (edition_outside (.registerId r x) s.world) fun r' => s.world.locking_registerId r r' x
  | _ => exact h.setWorld hpast s.taken rfl rfl fun _ => rfl

/-- **Every move preserves that tables are registered unless they are on their way.** -/
theorem Registered.step (h : Registered past f s) (hs : Sound False s) {mv : Move}
    (hm : s.step mv = .ok s') : ∃ f', Registered (past ++ (s.clearing? mv).toList) f' s' := by
  have hpast : past ⊆ past ++ (s.clearing? mv).toList := List.subset_append_left _ _
  refine step_preserves_at (P := fun s' => ∃ f', Registered (past ++ (s.clearing? mv).toList) f' s')
    hm ⟨f, h.setWorld hpast s.taken rfl rfl fun _ => rfl⟩ ?start ?finish ?quit ?perform ?outside
    ?foreign ?served
  case start => exact fun t o op _ hfree _ => ⟨f, h.start hpast hfree⟩
  case finish => exact fun t d p _ he => ⟨f, h.leave hpast _ (h.busy t _ he)⟩
  case quit => exact fun t d why _ he => ⟨f, h.leave hpast s.live (h.busy t _ he)⟩
  case perform => exact fun t d a next _ he hen => h.perform hpast hs he hen
  case outside =>
    intro o hmv
    subst hmv
    exact ⟨f, h.outside o⟩
  case foreign => exact fun _ _ _ _ => ⟨f, h.setWorld hpast s.taken rfl rfl fun _ => rfl⟩
  case served => exact fun _ _ _ _ _ _ _ => ⟨f, h.setWorld hpast _ rfl rfl fun _ => rfl⟩

variable {edition : Edition} {reported : Nat → Nat} {hostLocks : Int32} {ms : List Move}

/-- When nobody is at work on tables, the table is registered. -/
theorem isRegistered_of_run (hr : run ms (initial edition reported hostLocks) = .ok s)
    (hfree : s.world.lifecycle = none) :
    IsRegistered (clearings ms (initial edition reported hostLocks)) s := by
  have h : Sound False s ∧
      ∃ f, Registered ([] ++ clearings ms (initial edition reported hostLocks)) f s := by
    refine gather_induction (P := fun past s => Sound False s ∧ ∃ f, Registered past f s) ?_ ?_ hr
    · rintro mv - past s₁ s₂ ⟨hs, f, hf⟩ hstep
      exact ⟨hs.step False.elim hstep, hf.step hs hstep⟩
    · exact ⟨sound_initial False edition reported hostLocks, _,
        registered_initial edition reported hostLocks⟩
  obtain ⟨-, f, hf⟩ := h
  refine hf.slot fun t => Bool.eq_false_iff.mpr fun ht => ?_
  exact nomatch hfree.symm.trans (hf.inside t ht)

/-- A call that takes a lock of the table ends without a fault. -/
theorem exists_call_of_takes {r : Registry} (hown : s.world.locking r = some .own)
    (hin : s.world.isInstalled = true) (t : Thread) {mode index : Int32} (line : Int32)
    (place : Nat) (hm : mode.toInt % 2 = 1) (hlock : s.world.hasLock index = true) :
    ∃ s', s.call t r mode index line place = .ok s' := by
  obtain ⟨table, htable⟩ := Option.isSome_iff_exists.mp hin
  simp only [World.hasLock, World.tableSize, htable, Option.map_some, Option.all_some,
    Bool.and_eq_true, decide_eq_true_eq] at hlock
  have hl := Array.getElem?_eq_getElem hlock.2
  have hcall := dispatchTo_of_takes place t hlock.1 ((Mode.takes_iff mode).mpr hm) hl
  simp only [call, hown, htable, hcall]
  exact ⟨_, rfl⟩

/-- **What a handle that is ready can be relied on for.**  It is ready if a table is installed,
whichever registry that was made for, or if its own registry holds a callback.  So when nobody is at
work on tables, its own registry holds a callback, unless the table was made for another registry,
or another party has cleared the slot since the table came.  In a careful run, in which no removal
names a wrong registry, it is ready exactly if there is a table or another party's callback at its
registry; and where the callback is ours there is a table, so that to take a lock of it is no
fault. -/
theorem readiness_of_run (hr : run ms (initial edition reported hostLocks) = .ok s) (t : Thread) :
    ∀ c ∈ s.live,
      ((c.handle.isReady.run t s.world).1 = .ok true ↔
        s.world.isInstalled = true ∨ s.world.locking c.handle.registry ≠ none) ∧
      (s.world.lifecycle = none → s.world.keeps c.handle.registry = true →
        (c.handle.isReady.run t s.world).1 = .ok true →
        s.world.locking c.handle.registry ≠ none ∨
          ∃ m, s.ledger.origin = some m ∧ (m.operation.registry ≠ c.handle.registry ∨
            (m, c.handle.registry) ∈ clearings ms (initial edition reported hostLocks))) ∧
      (keeps isCareful ms (initial edition reported hostLocks) = true →
        ((c.handle.isReady.run t s.world).1 = .ok true ↔
          s.world.isInstalled = true ∨ ∃ k, s.world.locking c.handle.registry = some (.foreign k)) ∧
        (s.world.locking c.handle.registry = some .own → s.world.isInstalled = true ∧
          ∀ t' mode index line place, mode.toInt % 2 = 1 → s.world.hasLock index = true →
            ∃ s', s.call t' c.handle.registry mode index line place = .ok s')) := by
  intro c _
  have hready : (c.handle.isReady.run t s.world).1 = .ok true ↔
      s.world.isInstalled = true ∨ s.world.locking c.handle.registry ≠ none := by
    rw [Handle.run_isReady, Except.ok.injEq, Bool.or_eq_true, Option.isSome_iff_ne_none]
  refine ⟨hready, fun hfree hkeeps h => ?_, fun hcareful => ?_⟩
  · rcases hready.mp h with hin | hlock
    · have hs : Sound False s := (sound_initial False edition reported hostLocks).run False.elim hr
      have htable : s.world.isInstalled = s.ledger.origin.isSome := hs.ledger.table
      obtain ⟨m, hm⟩ := Option.isSome_iff_exists.mp (htable.symm.trans hin)
      by_cases hhome : m.operation.registry = c.handle.registry
      · have hslot := isRegistered_of_run hr hfree m hm (hhome ▸ hkeeps)
        rw [hhome] at hslot
        exact hslot.imp_right fun hpast => ⟨m, hm, .inr hpast⟩
      · exact .inr ⟨m, hm, .inl hhome⟩
    · exact .inl hlock
  · have hs : Sound True s :=
      (sound_initial True edition reported hostLocks).run (fun _ => hcareful) hr
    refine ⟨hready.trans ?_, fun hown => ?_⟩
    · cases hlock : s.world.locking c.handle.registry with
      | none => simp
      | some f =>
        cases f with
        | own => simp [(hs.isInstalled_of_own hlock).1]
        | foreign k => simp
    · obtain ⟨hin, -⟩ := hs.isInstalled_of_own hown
      exact ⟨hin, fun t' mode index line place => exists_call_of_takes hown hin t' line place⟩

/-- A handle with a table, and one for another registry. -/
def bystander : List Move := List.flatten
  [Move.inARow .main (.newHandle (.recorder 0)) 12, Move.inARow .main (.newHandle (.recorder 1)) 5]

theorem readiness_of_run_bystander :
    keeps isCareful bystander (initial .legacy (fun _ => 2) 3) = true ∧
    ∃ s, run bystander (initial .legacy (fun _ => 2) 3) = .ok s ∧
      ∃ c ∈ s.live, (c.handle.isReady.run .main s.world).1 = .ok true ∧
        ∃ s', s.call (.worker 0) c.handle.registry 5 1 0 0 = .ok s' := by
  have hk : keeps isCareful bystander (initial .legacy (fun _ => 2) 3) = true := by cbv
  obtain ⟨s, hr, hlive, hin, hown, hlock⟩ : ∃ s,
      run bystander (initial .legacy (fun _ => 2) 3) = .ok s ∧
      s.live = [⟨⟨0, .newHandle (.recorder 0)⟩, ⟨.recorder 0, some 1⟩, false⟩,
        ⟨⟨1, .newHandle (.recorder 1)⟩, ⟨.recorder 1, none⟩, false⟩] ∧
      s.world.isInstalled = true ∧ s.world.locking (.recorder 0) = some .own ∧
      s.world.hasLock 1 = true := ⟨_, rfl, by cbv, by cbv, by cbv, by cbv⟩
  have hc := hlive ▸ List.mem_cons_self
  obtain ⟨hready, -, hcareful⟩ := readiness_of_run hr .main _ hc
  obtain ⟨-, hcall⟩ := (hcareful hk).2 hown
  exact ⟨hk, s, hr, _, hc, hready.mpr (.inl hin), hcall (.worker 0) 5 1 0 0 rfl hlock⟩

/-- The table of a handle is removed in the name of another registry. -/
def misdirected : List Move := List.flatten
  [Move.inARow .main (.newHandle (.recorder 0)) 12, Move.inARow .main (.teardown (.recorder 1)) 8]

/-- A handle for a registry without a callback is ready, and so is one whose registry holds our
callback with no table to serve it. -/
theorem ready_without_a_callback_to_rely_on :
    (∃ s, run bystander (initial .legacy (fun _ => 2) 3) = .ok s ∧ s.world.lifecycle = none ∧
      ∃ c ∈ s.live, (c.handle.isReady.run .main s.world).1 = .ok true ∧
        s.world.keeps c.handle.registry = true ∧ s.world.locking c.handle.registry = none) ∧
    ∃ s, run misdirected (initial .legacy (fun _ => 2) 3) = .ok s ∧ s.world.lifecycle = none ∧
      ∃ c ∈ s.live, (c.handle.isReady.run .main s.world).1 = .ok true ∧
        s.world.locking c.handle.registry = some .own ∧ s.world.isInstalled = false ∧
        s.call .main c.handle.registry 1 0 0 0 = .error (.noTable 0) := by
  obtain ⟨s, hr, hlive, hfree, hready, hnone⟩ : ∃ s,
      run bystander (initial .legacy (fun _ => 2) 3) = .ok s ∧
      s.live = [⟨⟨0, .newHandle (.recorder 0)⟩, ⟨.recorder 0, some 1⟩, false⟩,
        ⟨⟨1, .newHandle (.recorder 1)⟩, ⟨.recorder 1, none⟩, false⟩] ∧
      s.world.lifecycle = none ∧
      ((Handle.mk (.recorder 1) none).isReady.run .main s.world).1 = .ok true ∧
      s.world.locking (.recorder 1) = none := ⟨_, rfl, by cbv, by cbv, by cbv, by cbv⟩
  obtain ⟨u, hu, hlive', hfree', hready', hown, hin, hcall⟩ : ∃ s,
      run misdirected (initial .legacy (fun _ => 2) 3) = .ok s ∧
      s.live = [⟨⟨0, .newHandle (.recorder 0)⟩, ⟨.recorder 0, some 1⟩, false⟩] ∧
      s.world.lifecycle = none ∧
      ((Handle.mk (.recorder 0) (some 1)).isReady.run .main s.world).1 = .ok true ∧
      s.world.locking (.recorder 0) = some .own ∧ s.world.isInstalled = false ∧
      s.call .main (.recorder 0) 1 0 0 0 = .error (.noTable 0) :=
    ⟨_, rfl, by cbv, by cbv, by cbv, by cbv, by cbv, by cbv⟩
  exact ⟨⟨s, hr, hfree, _, hlive ▸ List.mem_cons_of_mem _ List.mem_cons_self, hready, rfl, hnone⟩,
    u, hu, hfree', _, hlive' ▸ List.mem_cons_self, hready', hown, hin, hcall⟩

end Workshop

end CallbackLocks
