import CallbackLocks.Proofs.Locks
import CallbackLocks.Proofs.Runs.Workshop

/-!
# What holds after every run

* `Workshop.isCareful`   the moves of a run in which no removal names a wrong registry and nobody
                     else registers our dispatcher
* `Workshop.Sound`   the ledger is sound, what threads are in the middle of is safe, and every handle
                     that is alive stands for a call of its own
* `Workshop.Sound.step`, `Workshop.Sound.run`   **moves and runs preserve it**
-/

namespace CallbackLocks

open Ledger

namespace Workshop

/-- A removal names the registry of the table when it gets the lifecycle lock, and other parties do
not register our dispatcher. -/
def isCareful (s : Workshop) : Move → Bool
  | .go t => match s.errand t with
    | some ⟨⟨_, .teardown r⟩, .step .takeLifecycle _⟩ =>
      s.world.lifecycle.isSome || s.ledger.origin.all fun m => m.operation.registry == r
    | _ => true
  | .outside (.register _ f) => f != some .own
  | _ => true

theorem permits_of_isCareful {s : Workshop} {t : Thread} {d : Deed} {a : Access}
    {next : a.Reply → Program Prize} (hc : s.isCareful (.go t) = true)
    (he : s.errand t = some ⟨d, .step a next⟩) (hen : a.isEnabled s.world = true) :
    s.ledger.Permits True d a := by
  intro _ ha r hr m hm
  subst ha
  obtain ⟨call, operation⟩ := d
  subst hr
  have hfree : s.world.lifecycle = none := Option.isNone_iff_eq_none.mp hen
  simp only [isCareful, he, hm, hfree, Option.isSome_none, Bool.false_or, Option.all_some,
    beq_iff_eq] at hc
  exact hc

/-- The handle is what a call that is over has returned. -/
structure Stands (s : Workshop) (c : Holding) : Prop where
  past : c.deed.call < s.calls
  returned : c.deed.operation.returnsHandle = true
  records : Records s.ledger.makers c.deed c.handle
  ended : ∀ t e, s.errand t = some e → c.deed.call ≠ e.deed.call

/-- What holds of threads at work, whatever they have done so far. -/
structure Sound (careful : Prop) (s : Workshop) : Prop where
  ledger : s.ledger.Sound careful
  makers : ∀ m ∈ s.ledger.makers, m.call < s.calls
  idle : ∀ t, s.errand t = none → Away t s.ledger
  busy : ∀ t e, s.errand t = some e →
    e.deed.call < s.calls ∧ e.rest.Safe careful e.deed t (Delivers e.deed t) s.ledger
  apart : ∀ t t' e e', s.errand t = some e → s.errand t' = some e' →
    e.deed.call = e'.deed.call → t = t'
  live : ∀ c ∈ s.live, s.Stands c
  once : (s.live.map fun c => c.deed.call).Nodup

variable {careful : Prop} {s s' : Workshop} {t : Thread} {l : Ledger}

theorem sound_initial (careful : Prop) (edition : Edition) (reported : Nat → Nat)
    (hostLocks : Int32) : Sound careful (initial edition reported hostLocks) where
  ledger := by
    refine ⟨rfl, (fun _ h => nomatch h), fun _ => rfl, fun _ r h => ?_⟩
    replace h : (World.initial edition reported hostLocks).locking r = some .own := h
    unfold World.locking at h
    split at h
    · exact nomatch h
    · exact nomatch h
  makers := fun _ h => nomatch h
  idle := fun _ _ h => nomatch h
  busy := fun _ _ h => nomatch h
  apart := fun _ _ _ _ h => nomatch h
  live := fun _ h => nomatch h
  once := List.nodup_nil

/-! ## what others do to the process -/

/-- A change of the process that every call has to count on. -/
theorem Sound.disturb (h : Sound careful s) (taken : List (Thread × Nat))
    (hs : l.Sound careful) (hm : l.makers = s.ledger.makers)
    (hr : ∀ d t, Rely careful d t s.ledger l) :
    Sound careful { s with ledger := l, taken := taken } where
  ledger := hs
  makers := by
    show ∀ m ∈ l.makers, m.call < s.calls
    rw [hm]
    exact h.makers
  idle := fun t ht => (hr default t).away (h.idle t ht)
  busy := fun t e he => ⟨(h.busy t e he).1,
    Program.Safe.stable e.rest s.ledger l (hr e.deed t) (h.busy t e he).2⟩
  apart := h.apart
  live := by
    intro c hc
    have hst := h.live c hc
    exact { hst with records := hm ▸ hst.records }
  once := h.once

theorem Sound.alike (h : Sound careful s) (taken : List (Thread × Nat)) (ha : Alike s.ledger l) :
    Sound careful { s with ledger := l, taken := taken } :=
  h.disturb taken (ha.sound h.ledger) ha.makers fun _ _ => ha.rely

theorem outside_eq (o : Outside) (w : World) :
    (o.apply w).lifecycle = w.lifecycle ∧ (o.apply w).generation = w.generation ∧
      (o.apply w).table = w.table := by
  cases o with
  | register r f =>
    obtain ⟨s, hs⟩ := w.register_eq r f
    show (w.register r f).lifecycle = _ ∧ (w.register r f).generation = _ ∧
      (w.register r f).table = _
    rw [hs]
    exact ⟨rfl, rfl, rfl⟩
  | registerId r f =>
    obtain ⟨s, hs, -⟩ := w.registerId_eq r f
    show (w.registerId r f).lifecycle = _ ∧ (w.registerId r f).generation = _ ∧
      (w.registerId r f).table = _
    rw [hs]
    exact ⟨rfl, rfl, rfl⟩
  | report | reportHost | answerStart | seed | setQueue => exact ⟨rfl, rfl, rfl⟩

/-- Our dispatcher is not where it was not before, unless the other party put it there. -/
theorem locking_outside {o : Outside} {w : World} {r : Registry}
    (ho : ∀ r', o ≠ .register r' (some .own)) (h : (o.apply w).locking r = some .own) :
    w.locking r = some .own := by
  cases o with
  | register r' f =>
    replace h : (w.register r' f).locking r = some .own := h
    rw [World.locking_register_eq] at h
    split at h
    · split at h
      · subst h
        exact absurd rfl (ho r')
      · exact nomatch h
    · exact h
  | registerId r' f =>
    rw [← World.locking_registerId w r' r f]
    exact h
  | report | reportHost | answerStart | seed | setQueue => exact h

/-- A call counts on what other parties do not do. -/
theorem rely_outside (o : Outside) (ho : careful → ∀ r, o ≠ .register r (some .own)) (d : Deed)
    (t : Thread) : Rely careful d t s.ledger (s.setWorld (o.apply s.world)).ledger := by
  obtain ⟨hlife, hgen, htable⟩ := outside_eq o s.world
  have hsize : (o.apply s.world).tableSize = s.world.tableSize := by
    unfold World.tableSize
    rw [htable]
  refine ⟨⟨[], (List.append_nil _).symm, fun _ hm => absurd hm List.not_mem_nil⟩, ?_, fun hl => ?_⟩
  · show s.world.lifecycle ≠ some t → (o.apply s.world).lifecycle ≠ some t
    rw [hlife]
    exact id
  · exact ⟨hlife.trans hl, hgen, hsize, rfl, rfl, fun hcare r hr => locking_outside (ho hcare) hr⟩

theorem Sound.outside (h : Sound careful s) (o : Outside)
    (hc : careful → s.isCareful (.outside o) = true) :
    Sound careful (s.setWorld (o.apply s.world)) := by
  have ho : careful → ∀ r, o ≠ .register r (some .own) := fun hcare r hor => by
    subst hor
    exact absurd (hc hcare) Bool.false_ne_true
  obtain ⟨hlife, hgen, htable⟩ := outside_eq o s.world
  refine h.disturb s.taken ⟨?_, h.ledger.newest, ?_, ?_⟩ rfl (rely_outside o ho)
  · show (o.apply s.world).isInstalled = _
    unfold World.isInstalled
    rw [htable]
    exact h.ledger.table
  · show (o.apply s.world).lifecycle = none → _ = (o.apply s.world).generation
    rw [hlife, hgen]
    exact h.ledger.settled
  · exact fun hcare r hr => h.ledger.registered hcare r (locking_outside (ho hcare) hr)

/-! ## calls of the dispatcher -/

theorem Sound.call (h : Sound careful s) {r : Registry} {mode index line : Int32} {place : Nat}
    (hs : s.call t r mode index line place = .ok s') : Sound careful s' := by
  rcases call_cases hs with rfl | ⟨k, rfl⟩ | ⟨o, table, hd, rfl⟩
  · exact h
  · exact h.alike s.taken ⟨rfl, rfl, rfl, fun _ => rfl, rfl, rfl⟩
  · exact h.alike _ ⟨rfl, rfl, (dispatchTo_size hd).symm, fun _ => rfl, rfl, rfl⟩

/-! ## operations -/

theorem exists_live_of_operation {o : Order} {op : Operation} {h : Handle}
    (ho : s.operation o = some op) (hh : op.handle? = some h) : ∃ c ∈ s.live, c.handle = h := by
  have hlive : ∀ {i : Nat} {c : Holding}, s.live[i]? = some c → c.handle = h →
      ∃ c ∈ s.live, c.handle = h := fun hi hc => ⟨_, List.mem_of_getElem? hi, hc⟩
  cases o with
  | install | teardown | newHandle | beginSession =>
    rw [← Option.some.inj ho] at hh
    exact nomatch hh
  | ask i =>
    obtain ⟨_, -, rfl⟩ := Option.map_eq_some_iff.mp ho
    exact nomatch hh
  | drop i | uninstall i | finishSession i =>
    simp only [operation] at ho
    split at ho
    · rename_i hi
      rw [← Option.some.inj ho] at hh
      exact hlive hi (Option.some.inj hh)
    · exact nomatch ho

theorem liveAfter_sublist (s : Workshop) (o : Order) : (s.liveAfter o).Sublist s.live := by
  cases o with
  | install | teardown | newHandle | ask | beginSession => exact List.Sublist.refl _
  | drop i | uninstall i | finishSession i => exact List.eraseIdx_sublist _ _

/-- A thread that has nothing to do gets a call of its own, and handles may go. -/
theorem Sound.assign (h : Sound careful s) {live : List Holding} {op : Operation}
    {p : Program Prize} (hidle : s.errand t = none) (hsub : live.Sublist s.live)
    (hsafe : p.Safe careful ⟨s.calls, op⟩ t (Delivers ⟨s.calls, op⟩ t) s.ledger) :
    Sound careful ({ s with calls := s.calls + 1, live := live }.setErrand t
      (some ⟨⟨s.calls, op⟩, p⟩)) := by
  refine ⟨h.ledger, fun m hm => Nat.lt_succ_of_lt (h.makers m hm), ?_, ?_, ?_, ?_, ?_⟩
  · intro t' ht'
    rcases errand_cases ht' with ⟨-, heq⟩ | ⟨-, ht'⟩
    · exact nomatch heq
    · exact h.idle t' ht'
  · intro t' e he
    rcases errand_cases he with ⟨rfl, heq⟩ | ⟨-, he⟩
    · rw [← Option.some.inj heq]
      exact ⟨Nat.lt_succ_self _, hsafe⟩
    · exact ⟨Nat.lt_succ_of_lt (h.busy t' e he).1, (h.busy t' e he).2⟩
  · intro t₁ t₂ e₁ e₂ h₁ h₂ hcall
    rcases errand_cases h₁ with ⟨ht₁, heq₁⟩ | ⟨-, h₁⟩
    · rcases errand_cases h₂ with ⟨ht₂, -⟩ | ⟨-, h₂⟩
      · rw [ht₁, ht₂]
      · have hlt := (h.busy t₂ e₂ h₂).1
        rw [← hcall, ← Option.some.inj heq₁] at hlt
        exact absurd hlt (Nat.lt_irrefl _)
    · rcases errand_cases h₂ with ⟨-, heq₂⟩ | ⟨-, h₂⟩
      · have hlt := (h.busy t₁ e₁ h₁).1
        rw [hcall, ← Option.some.inj heq₂] at hlt
        exact absurd hlt (Nat.lt_irrefl _)
      · exact h.apart t₁ t₂ e₁ e₂ h₁ h₂ hcall
  · intro c hc
    have hst := h.live c (hsub.subset hc)
    refine ⟨Nat.lt_succ_of_lt hst.past, hst.returned, hst.records, fun t' e he => ?_⟩
    rcases errand_cases he with ⟨-, heq⟩ | ⟨-, he⟩
    · rw [← Option.some.inj heq]
      exact Nat.ne_of_lt hst.past
    · exact hst.ended t' e he
  · exact h.once.sublist (hsub.map _)

theorem Sound.start (h : Sound careful s) (o : Order) (hfree : s.isFree t = true) :
    Sound careful (s.start t o) := by
  unfold Workshop.start
  split
  · exact h
  rename_i op ho
  have hidle : s.errand t = none := errand_of_isFree hfree
  have hfresh : Fresh ⟨s.calls, op⟩ s.ledger := fun m hm => Nat.ne_of_lt (h.makers m hm)
  have hnames : ∀ h', op.handle? = some h' → Names h' s.ledger := by
    intro h' hh
    obtain ⟨c, hc, rfl⟩ := exists_live_of_operation ho hh
    exact (h.live c hc).records.names
  exact h.assign hidle (s.liveAfter_sublist o)
    (Operation.safe careful s.world.edition ⟨s.calls, op⟩ ⟨h.idle t hidle, hfresh⟩ hnames)

theorem Sound.perform (h : Sound careful s) {d : Deed} {a : Access}
    {next : a.Reply → Program Prize} (he : s.errand t = some ⟨d, .step a next⟩)
    (hperm : s.ledger.Permits careful d a) (hen : a.isEnabled s.world = true) :
    Sound careful ({ s with ledger := (s.ledger.perform d t a).2 }.setErrand t
      (some ⟨d, next (a.perform t s.world).1⟩)) := by
  obtain ⟨hlt, hsafe⟩ := h.busy t _ he
  obtain ⟨hadm, hnext⟩ := hsafe s.ledger (Rely.refl careful d t s.ledger) h.ledger hperm hen
  obtain ⟨more, hmore, hd⟩ := makers_perform d t a s.ledger
  -- the other threads count on what is in order here
  have hrely : ∀ t' (d' : Deed), t' ≠ t → d'.call ≠ d.call →
      Rely careful d' t' s.ledger (s.ledger.perform d t a).2 :=
    fun t' d' ht hd' => hadm.rely hen ht.symm hd'.symm
  refine ⟨h.ledger.perform hadm, ?_, ?_, ?_, ?_, ?_, h.once⟩
  · intro m hm
    replace hm : m ∈ (s.ledger.perform d t a).2.makers := hm
    rw [hmore] at hm
    rcases List.mem_append.mp hm with hm | hm
    · exact h.makers m hm
    · rw [hd m hm]
      exact hlt
  · intro t' ht'
    rcases errand_cases ht' with ⟨-, heq⟩ | ⟨hne, ht'⟩
    · exact nomatch heq
    · exact (hrely t' ⟨d.call + 1, d.operation⟩ hne (Nat.succ_ne_self _)).away (h.idle t' ht')
  · intro t' e' he'
    rcases errand_cases he' with ⟨rfl, heq⟩ | ⟨hne, he'⟩
    · rw [← Option.some.inj heq]
      exact ⟨hlt, hnext⟩
    · obtain ⟨hlt', hsafe'⟩ := h.busy t' e' he'
      have hcall : e'.deed.call ≠ d.call := fun hcall => hne (h.apart t' t e' _ he' he hcall)
      exact ⟨hlt', Program.Safe.stable e'.rest _ _ (hrely t' e'.deed hne hcall) hsafe'⟩
  · intro t₁ t₂ e₁ e₂ h₁ h₂ hcall
    -- the errand of `t` is still that of the same call
    have hsame : ∀ {t' e'}, t' = t ∧ some ⟨d, next (a.perform t s.world).1⟩ = some e' ∨
        t' ≠ t ∧ s.errand t' = some e' → ∃ e₀, s.errand t' = some e₀ ∧ e₀.deed = e'.deed := by
      intro t' e' h'
      rcases h' with ⟨rfl, heq⟩ | ⟨-, he'⟩
      · rw [← Option.some.inj heq]
        exact ⟨_, he, rfl⟩
      · exact ⟨e', he', rfl⟩
    obtain ⟨e₁', h₁', hd₁⟩ := hsame (errand_cases h₁)
    obtain ⟨e₂', h₂', hd₂⟩ := hsame (errand_cases h₂)
    exact h.apart t₁ t₂ e₁' e₂' h₁' h₂' (by rw [hd₁, hd₂, hcall])
  · intro c hc
    have hst := h.live c hc
    have hcd : c.deed.call ≠ d.call := hst.ended t _ he
    refine ⟨hst.past, hst.returned, ?_, fun t' e' he' => ?_⟩
    · show Records (s.ledger.perform d t a).2.makers c.deed c.handle
      rw [hmore]
      refine hst.records.append fun m hm => ?_
      rw [hd m hm]
      exact hcd.symm
    · rcases errand_cases he' with ⟨-, heq⟩ | ⟨-, he'⟩
      · rw [← Option.some.inj heq]
        exact hcd
      · exact hst.ended t' e' he'

/-- A call that has ended leaves its thread with nothing to do. -/
theorem Sound.leave (h : Sound careful s) (haway : Away t s.ledger) :
    Sound careful (s.setErrand t none) := by
  have hkeep : ∀ {t' e}, (s.setErrand t none).errand t' = some e → s.errand t' = some e := by
    intro t' e he
    rcases errand_cases he with ⟨-, heq⟩ | ⟨-, he⟩
    · exact nomatch heq
    · exact he
  refine ⟨h.ledger, h.makers, ?_, fun t' e he => h.busy t' e (hkeep he),
    fun t₁ t₂ e₁ e₂ h₁ h₂ => h.apart t₁ t₂ e₁ e₂ (hkeep h₁) (hkeep h₂), ?_, h.once⟩
  · intro t' ht'
    rcases errand_cases ht' with ⟨rfl, -⟩ | ⟨-, ht'⟩
    · exact haway
    · exact h.idle t' ht'
  · intro c hc
    have hst := h.live c hc
    exact { hst with ended := fun t' e he => hst.ended t' e (hkeep he) }

/-- A handle of a call that is over, and that has returned no other, is kept. -/
theorem Sound.keep (h : Sound careful s) {d : Deed} {p : Prize} (hlt : d.call < s.calls)
    (hrec : ∀ h', p.handle? = some h' →
      d.operation.returnsHandle = true ∧ Records s.ledger.makers d h')
    (hbusy : ∀ t e, s.errand t = some e → d.call ≠ e.deed.call)
    (hlive : ∀ c ∈ s.live, c.deed.call ≠ d.call) :
    Sound careful { s with live := s.live ++ p.holdings d } := by
  have hmem : ∀ c ∈ p.holdings d, c.deed = d ∧ p.handle? = some c.handle := by
    intro c hc
    cases p with
    | handle h' =>
      rw [List.mem_singleton.mp hc]
      exact ⟨rfl, rfl⟩
    | session x =>
      rw [List.mem_singleton.mp hc]
      exact ⟨rfl, rfl⟩
    | nothing | refusal => exact absurd hc List.not_mem_nil
  have hone : ((p.holdings d).map fun c => c.deed.call).Nodup := by
    cases p with
    | handle h' | session x => exact List.pairwise_singleton _ _
    | nothing | refusal => exact List.nodup_nil
  refine ⟨h.ledger, h.makers, h.idle, h.busy, h.apart, ?_, ?_⟩
  · intro c hc
    rcases List.mem_append.mp hc with hc | hc
    · exact { h.live c hc with }
    · obtain ⟨hd, hh⟩ := hmem c hc
      obtain ⟨hret, hr⟩ := hrec c.handle hh
      exact ⟨hd ▸ hlt, hd ▸ hret, hd ▸ hr, hd ▸ hbusy⟩
  · show ((s.live ++ p.holdings d).map fun c => c.deed.call).Nodup
    rw [List.map_append, List.nodup_append]
    refine ⟨h.once, hone, fun k hk k' hk' => ?_⟩
    obtain ⟨c, hc, rfl⟩ := List.mem_map.mp hk
    obtain ⟨c', hc', rfl⟩ := List.mem_map.mp hk'
    rw [(hmem c' hc').1]
    exact hlive c hc

theorem Sound.go (h : Sound careful s) (hc : careful → s.isCareful (.go t) = true) :
    Sound careful (s.go t) := by
  rcases s.go_cases t with ⟨heq, -⟩ | ⟨d, p, he, heq⟩ | ⟨d, why, he, heq⟩ |
    ⟨d, a, next, he, hen, heq⟩
  · rw [heq]
    exact h
  · obtain ⟨hlt, hsafe⟩ := h.busy t _ he
    obtain ⟨haway, hrec⟩ := hsafe s.ledger (Rely.refl careful d t s.ledger)
    rw [heq]
    refine (h.leave haway).keep hlt hrec (fun t' e he' hcall => ?_) fun c hc =>
      (h.live c hc).ended t _ he
    rcases errand_cases he' with ⟨-, heq⟩ | ⟨hne, he'⟩
    · exact nomatch heq
    · exact hne (h.apart t' t e _ he' he hcall.symm)
  · rw [heq]
    exact h.leave (h.busy t _ he).2
  · rw [heq]
    exact h.perform he (fun hcare => permits_of_isCareful (hc hcare) he hen trivial) hen

/-! ## moves and runs -/

/-- **What holds of threads at work is preserved by every move**; with `careful`, by every careful
one. -/
theorem Sound.step (h : Sound careful s) {m : Move} (hc : careful → s.isCareful m = true)
    (hs : s.step m = .ok s') : Sound careful s' := by
  rcases step_cases hs with rfl | ⟨t, o, -, hfree, rfl⟩ | ⟨t, rfl, rfl⟩ | ⟨o, rfl, rfl⟩ |
    ⟨t, r, mode, index, line, place, -, hs⟩
  · exact h
  · exact h.start o hfree
  · exact h.go hc
  · exact h.outside o hc
  · exact h.call hs

/-- **It holds after every run.** -/
theorem Sound.run (h : Sound careful s) {ms : List Move}
    (hk : careful → keeps isCareful ms s = true) (hr : Workshop.run ms s = .ok s') :
    Sound careful s' := by
  refine (run_induction (P := fun ms s => Sound careful s ∧ (careful → keeps isCareful ms s = true))
    (fun m ms s₁ s₂ ⟨hs, hc⟩ hstep => ⟨?_, ?_⟩) ⟨h, hk⟩ hr).1
  · exact hs.step (fun hcare => (keeps_cons (hc hcare)).1) hstep
  · exact fun hcare => (keeps_cons (hc hcare)).2 s₂ hstep

end Workshop

end CallbackLocks
