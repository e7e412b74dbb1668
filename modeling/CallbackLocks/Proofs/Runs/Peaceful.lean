import CallbackLocks.Proofs.Runs.Tenure

/-!
# Peaceful runs

Runs in which tables go only with handles: nobody removes a table by name, and nobody else writes
into the slots of the host.

* `Move.isPeaceful`  the moves of such a run
* `Workshop.IsGivenUp`   the handle that a call returned has gone away
* `Workshop.Tenured`   what all threads know, and whose the handles are that go away
* `Workshop.Tenured.isGivenUp`   **a table that is removed is the one of a handle that has gone
                     away**
* `Workshop.Tenured.step`   **peaceful moves preserve it**
-/

namespace CallbackLocks

open Ledger

/-- Nobody removes a table by name, or writes into a slot of the host from outside. -/
def Move.isPeaceful : Move → Bool
  | .start _ (.teardown _) | .outside (.register .host _) | .outside (.registerId .host _) => false
  | _ => true

namespace Workshop

variable {s s' : Workshop} {t : Thread} {m d : Deed} {f : Thread → Tenure}

/-! ## handles that have gone away -/

/-- The call is over, and no handle that it returned is alive. -/
structure IsGivenUp (s : Workshop) (m : Deed) : Prop where
  past : m.call < s.calls
  ended : ∀ t e, s.errand t = some e → m.call ≠ e.deed.call
  absent : ∀ c ∈ s.live, m.call ≠ c.deed.call

theorem IsGivenUp.setErrand (h : s.IsGivenUp m) {e : Option Errand}
    (he : ∀ e', e = some e' → m.call ≠ e'.deed.call) : (s.setErrand t e).IsGivenUp m where
  past := h.past
  ended := by
    intro t' e' he'
    rcases errand_cases he' with ⟨-, heq⟩ | ⟨-, he'⟩
    · exact he e' heq
    · exact h.ended t' e' he'
  absent := h.absent

theorem IsGivenUp.start (h : s.IsGivenUp m) (o : Order) (e : Errand) (he : e.deed.call = s.calls) :
    ({ s with calls := s.calls + 1, live := s.liveAfter o }.setErrand t (some e)).IsGivenUp m := by
  have hcount : IsGivenUp { s with calls := s.calls + 1, live := s.liveAfter o } m :=
    ⟨Nat.lt_succ_of_lt h.past, h.ended, fun c hc => h.absent c ((s.liveAfter_sublist o).subset hc)⟩
  refine hcount.setErrand fun e' heq => ?_
  rw [← Option.some.inj heq, he]
  exact Nat.ne_of_lt h.past

theorem deed_of_mem_holdings {c : Holding} {p : Prize} (hc : c ∈ p.holdings d) : c.deed = d := by
  cases p with
  | handle | session => rw [List.mem_singleton.mp hc]
  | nothing | refusal => exact absurd hc List.not_mem_nil

theorem IsGivenUp.finish (h : s.IsGivenUp m) {p : Prize}
    (he : s.errand t = some ⟨d, .done p⟩) :
    ({ s with live := s.live ++ p.holdings d }.setErrand t none).IsGivenUp m := by
  have hkept : IsGivenUp { s with live := s.live ++ p.holdings d } m := by
    refine ⟨h.past, h.ended, fun c hc => ?_⟩
    rcases List.mem_append.mp hc with hc | hc
    · exact h.absent c hc
    · rw [deed_of_mem_holdings hc]
      exact h.ended t _ he
  exact hkept.setErrand fun _ heq => nomatch heq

theorem IsGivenUp.perform (h : s.IsGivenUp m) {a : Access} {next : a.Reply → Program Prize}
    {rest : Program Prize} (he : s.errand t = some ⟨d, .step a next⟩) :
    ({ s with ledger := (s.ledger.perform d t a).2 }.setErrand t (some ⟨d, rest⟩)).IsGivenUp m := by
  have hsame : IsGivenUp { s with ledger := (s.ledger.perform d t a).2 } m := { h with }
  refine hsame.setErrand fun e' heq => ?_
  rw [← Option.some.inj heq]
  exact h.ended t ⟨d, .step a next⟩ he

/-- A handle that is taken to be given up. -/
theorem exists_taken_of_operation {o : Order} {op : Operation} {x : Handle}
    (ho : s.operation o = some op) (hx : op.handle? = some x) : ∃ i c, s.live[i]? = some c ∧
      c.handle = x ∧ c.session = op.isOnSession ∧ s.liveAfter o = s.live.eraseIdx i := by
  cases o with
  | install | teardown | newHandle | beginSession =>
    rw [← Option.some.inj ho] at hx
    exact nomatch hx
  | ask i =>
    obtain ⟨_, -, rfl⟩ := Option.map_eq_some_iff.mp ho
    exact nomatch hx
  | drop i | uninstall i | finishSession i =>
    simp only [operation] at ho
    split at ho
    · rename_i hi
      rw [← Option.some.inj ho] at hx ⊢
      exact ⟨i, _, hi, Option.some.inj hx, rfl, rfl⟩
    · cases ho

theorem Sound.isGivenUp (h : Sound False s) {i : Nat} {c : Holding} (hi : s.live[i]? = some c)
    (e : Errand) (he : e.deed.call = s.calls) :
    ({ s with calls := s.calls + 1, live := s.live.eraseIdx i }.setErrand t (some e)).IsGivenUp
      c.deed := by
  obtain ⟨hlt, rfl⟩ := List.getElem?_eq_some_iff.mp hi
  have hst := h.live _ (List.getElem_mem hlt)
  refine ⟨Nat.lt_succ_of_lt hst.past, fun t' e' he' => ?_, fun c' hc' => ?_⟩
  · rcases errand_cases he' with ⟨-, heq⟩ | ⟨-, he'⟩
    · rw [← Option.some.inj heq, he]
      exact Nat.ne_of_lt hst.past
    · exact hst.ended t' e' he'
  · have hperm := (List.getElem_cons_eraseIdx_perm hlt).map fun c => c.deed.call
    have honce := hperm.nodup_iff.mpr h.once
    rw [List.map_cons, List.nodup_cons] at honce
    exact fun heq => honce.1 (List.mem_map.mpr ⟨c', hc', heq.symm⟩)

/-! ## threads at work -/

/-- What all threads know, and whose the handles are that go away. -/
structure Tenured (f : Thread → Tenure) (s : Workshop) : Prop where
  idle : ∀ t, s.errand t = none → f t = .out
  busy : ∀ t e, s.errand t = some e → e.rest.Along (.tenure e.deed.operation)
      (fun b p => b = .out ∧ p.IsOf e.deed.operation) (f t) ∧
    (f t).Fits e.deed.operation t s.ledger
  slot : ∀ g, s.world.locking .host = some g →
    ∃ m, s.ledger.origin = some m ∧ m.operation.registry = .host
  kinds : ∀ c ∈ s.live, c.deed.operation.Returns c.session
  taken : ∀ t e x, s.errand t = some e → e.deed.operation.handle? = some x →
    ∃ m, s.IsGivenUp m ∧ Records s.ledger.makers m x ∧
      m.operation.Returns e.deed.operation.isOnSession

theorem Tenured.start (hf : Tenured f s) (h : Sound False s) {o : Order} {op : Operation}
    (hfree : s.isFree t = true) (ho : s.operation o = some op) (hop : ∀ r, op ≠ .teardown r) :
    Tenured f ({ s with calls := s.calls + 1, live := s.liveAfter o }.setErrand t
      (some ⟨⟨s.calls, op⟩, op.program s.world.edition⟩)) := by
  have hidle : s.errand t = none := errand_of_isFree hfree
  refine { idle := ?idle, busy := ?busy, slot := hf.slot, kinds := ?kinds, taken := ?taken }
  case idle =>
    intro t' ht'
    rcases errand_cases ht' with ⟨-, heq⟩ | ⟨-, ht'⟩
    · exact nomatch heq
    · exact hf.idle t' ht'
  case busy =>
    intro t' e he
    rcases errand_cases he with ⟨rfl, heq⟩ | ⟨-, he⟩
    · rw [← Option.some.inj heq, hf.idle t' hidle]
      exact ⟨op.tenure_along s.world.edition hop, Tenure.fits_out _ _ _⟩
    · exact hf.busy t' e he
  case kinds => exact fun c hc => hf.kinds c ((s.liveAfter_sublist o).subset hc)
  case taken =>
    intro t' e x he hx
    rcases errand_cases he with ⟨rfl, heq⟩ | ⟨-, he⟩
    · rw [← Option.some.inj heq] at hx ⊢
      obtain ⟨i, c, hi, rfl, hsession, hlive⟩ := exists_taken_of_operation ho hx
      have hmem := List.mem_of_getElem? hi
      refine ⟨c.deed, ?_, (h.live c hmem).records, hsession ▸ hf.kinds c hmem⟩
      rw [hlive]
      exact h.isGivenUp hi _ rfl
    · obtain ⟨m, hm, hrest⟩ := hf.taken t' e x he hx
      exact ⟨m, hm.start o _ rfl, hrest⟩

theorem Tenured.leave (hf : Tenured f s) (hout : f t = .out) : Tenured f (s.setErrand t none) := by
  refine { hf with idle := ?idle, busy := ?busy, taken := ?taken }
  case idle =>
    intro t' ht'
    rcases errand_cases ht' with ⟨rfl, -⟩ | ⟨-, ht'⟩
    · exact hout
    · exact hf.idle t' ht'
  case busy =>
    intro t' e he
    rcases errand_cases he with ⟨-, heq⟩ | ⟨-, he⟩
    · exact nomatch heq
    · exact hf.busy t' e he
  case taken =>
    intro t' e x he hx
    rcases errand_cases he with ⟨-, heq⟩ | ⟨-, he⟩
    · exact nomatch heq
    · obtain ⟨m, hm, hrest⟩ := hf.taken t' e x he hx
      exact ⟨m, hm.setErrand fun _ heq => (nomatch heq), hrest⟩

theorem Tenured.finish (hf : Tenured f s) {p : Prize} (he : s.errand t = some ⟨d, .done p⟩) :
    Tenured f ({ s with live := s.live ++ p.holdings d }.setErrand t none) := by
  obtain ⟨⟨hout, hp⟩, -⟩ := hf.busy t _ he
  have hleave := hf.leave hout
  refine { hleave with
    kinds := fun c hc => ?_
    taken := fun t' e' x he' hx => ?_ }
  · rcases List.mem_append.mp hc with hc | hc
    · exact hf.kinds c hc
    · cases p with
      | handle x =>
        rw [List.mem_singleton.mp hc]
        exact hp
      | session x =>
        rw [List.mem_singleton.mp hc]
        exact hp
      | nothing | refusal => exact absurd hc List.not_mem_nil
  · rcases errand_cases he' with ⟨-, heq⟩ | ⟨-, he'⟩
    · exact nomatch heq
    · obtain ⟨m, hm, hrest⟩ := hf.taken t' e' x he' hx
      exact ⟨m, hm.finish he, hrest⟩

theorem Sound.admits (h : Sound False s) {a : Access} {next : a.Reply → Program Prize}
    (he : s.errand t = some ⟨d, .step a next⟩) (hen : a.isEnabled s.world = true) :
    s.ledger.Admits False t a :=
  ((h.busy t _ he).2 s.ledger (Rely.refl False d t s.ledger) h.ledger False.elim hen).1

/-- The locking slot of the host is clear once it has been cleared. -/
theorem Tenured.locking_clear (hf : Tenured f s) (h : Sound False s) {r : Registry}
    {next : Unit → Program Prize} (he : s.errand t = some ⟨d, .step (.setLocking r none) next⟩) :
    (s.world.register r none).locking .host = none := by
  obtain ⟨⟨⟨haimed, hop, hreg⟩, -⟩, hfits⟩ := hf.busy t _ he
  rw [haimed] at hfits
  rw [World.locking_register_eq]
  split
  · exact ite_self none
  · rename_i hr
    by_contra hne
    obtain ⟨g, hg⟩ := Option.ne_none_iff_exists'.mp hne
    obtain ⟨m, hm, hhost⟩ := hf.slot g hg
    refine hr ((hfits.registry_eq_host h.ledger hop (fun x hx => ?_) hm hhost).symm.trans hreg)
    obtain ⟨m', -, hrest⟩ := hf.taken t _ x he hx
    exact ⟨m', hrest⟩

/-- What the host holds is ours, and the table is there. -/
theorem Tenured.slot_perform (hf : Tenured f s) (h : Sound False s) {a : Access}
    {next : a.Reply → Program Prize} (he : s.errand t = some ⟨d, .step a next⟩)
    (hadm : s.ledger.Admits False t a) {g : LockCallback}
    (hg : (s.ledger.perform d t a).2.world.locking .host = some g) :
    ∃ m, (s.ledger.perform d t a).2.origin = some m ∧ m.operation.registry = .host := by
  by_cases hq : IsQuiet a = true
  · have ha := alike_perform d t s.ledger hq
    rw [ha.origin]
    exact hf.slot g ((ha.locking .host).symm.trans hg)
  cases a with
  | takeLifecycle | freeLifecycle | countInstall => exact hf.slot g hg
  | publishTable size =>
    obtain ⟨m, hm, -⟩ := hf.slot g hg
    exact nomatch hadm.2.symm.trans hm
  | withdrawTable =>
    obtain ⟨⟨⟨hcleared, -⟩, -⟩, hfits⟩ := hf.busy t _ he
    exact nomatch (hfits.cleared hcleared).symm.trans hg
  | setLocking r x =>
    cases x with
    | none => exact nomatch (hf.locking_clear h he).symm.trans hg
    | some x =>
      replace hg : (s.world.register r (some x)).locking .host = some g := hg
      rw [World.locking_register_eq] at hg
      split at hg
      · rename_i hr
        cases x with
        | own => exact hr ▸ hadm.2
        | foreign k => exact hadm.elim
      · exact hf.slot g hg
  | _ => exact absurd rfl hq

theorem Tenured.perform (hf : Tenured f s) (h : Sound False s) {a : Access}
    {next : a.Reply → Program Prize} (he : s.errand t = some ⟨d, .step a next⟩)
    (hen : a.isEnabled s.world = true) : ∃ f', Tenured f'
      ({ s with ledger := (s.ledger.perform d t a).2 }.setErrand t
        (some ⟨d, next (a.perform t s.world).1⟩)) := by
  have hadm := h.admits he hen
  obtain ⟨⟨hallow, hnext⟩, hfits⟩ := hf.busy t _ he
  obtain ⟨b, hl⟩ := Watch.exists_tenure d.operation (f t) a s.world
  obtain ⟨more, hmore, hd⟩ := makers_perform d t a s.ledger
  refine ⟨Function.update f t b, {
    idle := ?idle, busy := ?busy, slot := fun g hg => hf.slot_perform h he hadm hg,
    kinds := hf.kinds, taken := ?taken }⟩
  case idle =>
    intro t' ht'
    rcases errand_cases ht' with ⟨-, heq⟩ | ⟨hne, ht'⟩
    · exact nomatch heq
    · rw [Function.update_of_ne hne]
      exact hf.idle t' ht'
  case busy =>
    intro t' e he'
    rcases errand_cases he' with ⟨rfl, heq⟩ | ⟨hne, he'⟩
    · rw [← Option.some.inj heq, Function.update_self]
      refine ⟨hnext _ s.world b hl, hfits.own h.ledger hen hallow hl fun r ha => ?_⟩
      subst ha
      exact hf.locking_clear h he
    · rw [Function.update_of_ne hne]
      have hcall : d.call ≠ e.deed.call := fun hcall => hne (h.apart t' t e _ he' he hcall.symm)
      exact ⟨(hf.busy t' e he').1, (hf.busy t' e he').2.others hadm hen hne.symm hcall⟩
  case taken =>
    intro t' e x he' hx
    -- the deed of the errand is the one that it was
    obtain ⟨e₀, he₀, hdeed⟩ : ∃ e₀, s.errand t' = some e₀ ∧ e₀.deed = e.deed := by
      rcases errand_cases he' with ⟨rfl, heq⟩ | ⟨-, he'⟩
      · rw [← Option.some.inj heq]
        exact ⟨_, he, rfl⟩
      · exact ⟨e, he', rfl⟩
    rw [← hdeed] at hx ⊢
    obtain ⟨m, hm, hrec, hret⟩ := hf.taken t' e₀ x he₀ hx
    refine ⟨m, hm.perform he, ?_, hret⟩
    show Records (s.ledger.perform d t a).2.makers m x
    rw [hmore]
    refine hrec.append fun m' hm' => ?_
    rw [hd m' hm']
    exact (hm.ended t _ he).symm

/-- **A table that is removed is the one of a handle that has gone away**, unless it is removed by a
call about sessions. -/
theorem Tenured.isGivenUp (hf : Tenured f s) (h : Sound False s)
    {next : Unit → Program Prize} (he : s.errand t = some ⟨d, .step .withdrawTable next⟩)
    (hoff : d.operation.isOnSession = false) (hm : s.ledger.origin = some m) :
    (∃ r, m.operation = .newHandle r) ∧ s.IsGivenUp m := by
  obtain ⟨⟨⟨hcleared, hop⟩, -⟩, hfits⟩ := hf.busy t _ he
  rw [hcleared] at hfits
  have htaken := fun x => hf.taken t _ x he
  obtain ⟨call, op⟩ := d
  cases op with
  | install | teardown | newHandle | ask => exact nomatch hop
  | beginSession | finishSession => exact nomatch hoff
  | drop x | uninstall x =>
    obtain ⟨m', hgone, hrec, hret⟩ := htaken x rfl
    have hg : x.generation = some s.world.generation := beq_iff_eq.mp (hfits.aimed (.inr rfl))
    rw [h.ledger.eq_of_records hrec hg (hfits.settled (nomatch ·) rfl) hm]
    exact ⟨hret, hgone⟩

/-- A change of the process that leaves the lifecycle lock and the host's slot alone. -/
theorem Tenured.setWorld (hf : Tenured f s) (taken : List (Thread × Nat)) {w : World}
    (hlife : w.lifecycle = s.world.lifecycle) (hgen : w.generation = s.world.generation)
    (hlock : w.locking .host = s.world.locking .host) :
    Tenured f { s.setWorld w with taken := taken } where
  idle := hf.idle
  busy := fun t e he => ⟨(hf.busy t e he).1, (hf.busy t e he).2.congr hlife hgen rfl fun _ => hlock⟩
  slot := fun g hg => hf.slot g (hlock.symm.trans hg)
  kinds := hf.kinds
  taken := fun t e x he hx => by
    obtain ⟨m, hm, hrest⟩ := hf.taken t e x he hx
    exact ⟨m, { hm with }, hrest⟩

theorem locking_outside_of_isPeaceful {o : Outside} (ho : (Move.outside o).isPeaceful = true)
    (w : World) : (o.apply w).locking .host = w.locking .host := by
  cases o with
  | register r g =>
    cases r with
    | host => exact nomatch ho
    | recorder i => exact (w.locking_register_eq (.recorder i) .host g).trans (if_neg (nomatch ·))
  | registerId r g => exact w.locking_registerId r .host g
  | _ => rfl

/-- **What threads know is preserved by every peaceful move.** -/
theorem Tenured.step (hf : Tenured f s) (h : Sound False s) {mv : Move}
    (hm : mv.isPeaceful = true) (hs : s.step mv = .ok s') : ∃ f', Tenured f' s' := by
  refine step_preserves_at (P := fun s' => ∃ f', Tenured f' s') hs ⟨f, hf⟩ ?start ?finish ?quit
    ?perform ?outside ?foreign ?served
  case start =>
    intro t o op hmv hfree ho
    refine ⟨f, hf.start h hfree ho fun r hr => ?_⟩
    subst hmv hr
    cases o with
    | teardown r' => cases hm
    | install | newHandle | beginSession => cases ho
    | ask i =>
      obtain ⟨_, -, heq⟩ := Option.map_eq_some_iff.mp ho
      cases heq
    | drop i | uninstall i | finishSession i =>
      simp only [operation] at ho
      split at ho <;> cases ho
  case finish => exact fun t d p _ he => ⟨f, hf.finish he⟩
  case quit => exact fun t d why _ he => ⟨f, hf.leave (hf.busy t _ he).1⟩
  case perform => exact fun t d a next _ he hen => hf.perform h he hen
  case outside =>
    intro o hmv
    subst hmv
    obtain ⟨hlife, hgen, -⟩ := outside_eq o s.world
    exact ⟨f, hf.setWorld s.taken hlife hgen (locking_outside_of_isPeaceful hm s.world)⟩
  case foreign => exact fun k mode index line => ⟨f, hf.setWorld s.taken rfl rfl rfl⟩
  case served => exact fun _ _ _ _ _ _ _ => ⟨f, hf.setWorld _ rfl rfl rfl⟩

theorem tenured_initial (edition : Edition) (reported : Nat → Nat) (hostLocks : Int32) :
    Tenured (fun _ => .out) (initial edition reported hostLocks) where
  idle := fun _ _ => rfl
  busy := fun _ _ h => nomatch h
  slot := by
    intro g hg
    replace hg : (World.initial edition reported hostLocks).locking .host = some g := hg
    unfold World.locking at hg
    split at hg <;> exact nomatch hg
  kinds := fun _ h => nomatch h
  taken := fun _ _ _ h => nomatch h

end Workshop

end CallbackLocks
