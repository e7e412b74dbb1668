import Mathlib
import CallbackLocks.Proofs.Alone.Calls
import CallbackLocks.Proofs.Runs.Footing
import CallbackLocks.Proofs.Runs.Peaceful

/-!
# Sessions that stay ready

A session is ready if a table is installed.  It brings one with it, or finds one in place; and what
it has found can go, if there is a handle to it.

* `Workshop.findings`   which calls have found which tables in place
* `Workshop.Rests`   the table that a session relies on is there, or its handle has gone away
* `Workshop.Founded`   at most one call or session has the claim, and sessions rely on tables that
                     they have made or found
* `Workshop.Founded.step`   **every peaceful move preserves it**
* `Workshop.session_stays_ready`   **a session is ready, unless the handle of the table that it
                     found has gone away**
-/

namespace CallbackLocks

open Program

namespace Workshop

open Ledger

variable {s s' : Workshop} {t : Thread} {d m : Deed} {f : Thread → Tenure} {g : Thread → Footing}
  {past past' : List (Deed × Deed)}

/-- A call that looks for a table finds the one that another call has made. -/
def finding? (s : Workshop) : Move → Option (Deed × Deed)
  | .go t => match s.errand t with
    | some ⟨d, .step .loadTable _⟩ => s.ledger.origin.map (Prod.mk d)
    | _ => none
  | _ => none

/-- the calls that have looked for a table and found one, each with the call that had made it -/
def findings : List Move → Workshop → List (Deed × Deed) := gather finding?

theorem finding?_of_loadTable {next : Option Nat → Program Prize}
    (he : s.errand t = some ⟨d, .step .loadTable next⟩) (hm : s.ledger.origin = some m) :
    s.finding? (.go t) = some (d, m) := by
  simp only [finding?, he, hm, Option.map_some]

/-! ## tables that are relied on -/

/-- The call `d` has made the table of `m` or found it in place; it is there, or it was the table of
a handle that has gone away. -/
structure Rests (past : List (Deed × Deed)) (s : Workshop) (d m : Deed) : Prop where
  found : m = d ∨ (d, m) ∈ past
  there : s.ledger.origin = some m ∨ (∃ r, m.operation = .newHandle r) ∧ s.IsGivenUp m

theorem Rests.keep (h : Rests past s d m) (hpast : past ⊆ past')
    (horigin : s'.ledger.origin = s.ledger.origin) (hgone : s.IsGivenUp m → s'.IsGivenUp m) :
    Rests past' s' d m where
  found := h.found.imp_right (hpast ·)
  there := h.there.imp horigin.trans (And.imp_right hgone)

/-- The table stays in place, unless its handle is given up. -/
theorem Rests.perform (h : Rests past s d m) (hpast : past ⊆ past') (hs : Sound False s)
    (hf : Tenured f s) {d' : Deed} {a : Access} {next : a.Reply → Program Prize}
    (he : s.errand t = some ⟨d', .step a next⟩) (hen : a.isEnabled s.world = true)
    (hoff : a = .withdrawTable → d'.operation.isOnSession = false) (rest : Program Prize) :
    Rests past' ({ s with ledger := (s.ledger.perform d' t a).2 }.setErrand t (some ⟨d', rest⟩))
      d m := by
  have hadm := hs.admits he hen
  refine ⟨h.found.imp_right (hpast ·), ?_⟩
  rcases h.there with hm | ⟨hr, hgone⟩
  · cases a with
    | publishTable size => exact nomatch hadm.2.symm.trans hm
    | withdrawTable =>
      obtain ⟨hr, hgone⟩ := hf.isGivenUp hs he (hoff rfl) hm
      exact .inr ⟨hr, hgone.perform he⟩
    | _ => exact .inl hm
  · exact .inr ⟨hr, hgone.perform he⟩

/-! ## threads at work -/

/-- At most one call or session has the claim, and every session relies on a table. -/
structure Founded (past : List (Deed × Deed)) (g : Thread → Footing) (s : Workshop) : Prop where
  idle : ∀ t, s.errand t = none → g t = .idle
  busy : ∀ t e, s.errand t = some e → e.rest.Along (.footing e.deed.operation.isOnSession)
      (fun b p => b = if p.isSession then .rests else .idle) (g t) ∧
    (g t ≠ .idle → e.deed.operation.isOnSession = true)
  sole : ∀ t t', g t ≠ .idle → g t' ≠ .idle → t = t'
  alone : ∀ t, g t ≠ .idle → s.sessions = 0
  one : s.sessions ≤ 1
  claimed : (∃ t, g t ≠ .idle) ∨ s.sessions ≠ 0 → s.world.claimed = true
  looked : ∀ t, g t = .looked → s.world.lifecycle = some t ∧ s.ledger.origin = none
  rests : ∀ t e, s.errand t = some e → g t = .rests → ∃ m, Rests past s e.deed m
  live : ∀ c ∈ s.live, c.session = true → ∃ m, Rests past s c.deed m

theorem founded_initial (edition : Edition) (reported : Nat → Nat) (hostLocks : Int32) :
    Founded [] (fun _ => .idle) (initial edition reported hostLocks) where
  idle := fun _ _ => rfl
  busy := fun _ _ h => nomatch h
  sole := fun _ _ h => absurd rfl h
  alone := fun _ h => absurd rfl h
  one := Nat.zero_le 1
  claimed := by
    rintro (⟨t, h⟩ | h)
    · exact absurd rfl h
    · exact absurd rfl h
  looked := fun _ h => nomatch h
  rests := fun _ _ h => nomatch h
  live := fun _ h => nomatch h

section
variable {o : Order} {op : Operation}

theorem Rests.start (h : Rests past s d m) (hpast : past ⊆ past') (o : Order) (op : Operation) :
    Rests past' ({ s with calls := s.calls + 1, live := s.liveAfter o }.setErrand t
      (some ⟨⟨s.calls, op⟩, op.program s.world.edition⟩)) d m :=
  h.keep hpast rfl fun hgone => hgone.start o _ rfl

/-- A call begins that ends no session: it has no claim, and nothing to rely on. -/
theorem Founded.start_of_not_endsSession (hg : Founded past g s) (hpast : past ⊆ past')
    (hfree : s.isFree t = true) (ho : s.operation o = some op) (hends : op.endsSession = false) :
    Founded past' g ({ s with calls := s.calls + 1, live := s.liveAfter o }.setErrand t
      (some ⟨⟨s.calls, op⟩, op.program s.world.edition⟩)) := by
  have hidle : g t = .idle := hg.idle t (errand_of_isFree hfree)
  have hcount := sessions_eq_of_operation ho
  have halong := op.footing_along s.world.edition
  rw [hends] at hcount halong
  refine {
    idle := ?idle, busy := ?busy, sole := hg.sole, alone := ?alone,
    one := hcount.symm.le.trans hg.one, claimed := ?claimed, looked := hg.looked, rests := ?rests,
    live := ?live }
  case idle =>
    intro t' ht'
    rcases errand_cases ht' with ⟨-, heq⟩ | ⟨-, ht'⟩
    · exact nomatch heq
    · exact hg.idle t' ht'
  case busy =>
    intro t' e he
    rcases errand_cases he with ⟨rfl, heq⟩ | ⟨-, he⟩
    · rw [← Option.some.inj heq, hidle]
      exact ⟨halong, absurd rfl⟩
    · exact hg.busy t' e he
  case alone => exact fun t' ht' => hcount.symm.trans (hg.alone t' ht')
  case claimed =>
    exact fun h => hg.claimed (h.imp_right fun hne heq => hne (hcount.symm.trans heq))
  case rests =>
    intro t' e he ht'
    rcases errand_cases he with ⟨rfl, -⟩ | ⟨-, he⟩
    · exact nomatch hidle.symm.trans ht'
    · exact (hg.rests t' e he ht').imp fun _ h => h.start hpast o op
  case live =>
    intro c hc hsession
    have hlive := hg.live c ((s.liveAfter_sublist o).subset hc) hsession
    exact hlive.imp fun _ h => h.start hpast o op

/-- A call begins that ends the one session: it has the claim from the start. -/
theorem Founded.start_of_endsSession (hg : Founded past g s) (hpast : past ⊆ past')
    (ho : s.operation o = some op) (hends : op.endsSession = true) :
    Founded past' (Function.update g t .leaving)
      ({ s with calls := s.calls + 1, live := s.liveAfter o }.setErrand t
        (some ⟨⟨s.calls, op⟩, op.program s.world.edition⟩)) := by
  have hcount := sessions_eq_of_operation ho
  have halong := op.footing_along s.world.edition
  rw [hends] at hcount halong
  replace hcount : s.sessions = (s.liveAfter o).countP Holding.session + 1 := hcount
  -- nobody else has the claim, and this was the only session
  have hall : ∀ t', g t' = .idle := fun t' => by
    by_contra hne
    exact nomatch hcount.symm.trans (hg.alone t' hne)
  have hzero : (s.liveAfter o).countP Holding.session = 0 := by
    have := hg.one
    omega
  have hclaimed : s.world.claimed = true := hg.claimed (.inr (by omega))
  have hupdate : ∀ {t'}, Function.update g t .leaving t' ≠ .idle →
      t' = t ∧ Function.update g t .leaving t' = .leaving := by
    intro t' hne
    by_cases ht : t' = t
    · exact ⟨ht, ht ▸ Function.update_self ..⟩
    · exact absurd ((Function.update_of_ne ht _ _).trans (hall t')) hne
  refine {
    idle := ?idle, busy := ?busy, sole := ?sole, alone := fun _ _ => hzero,
    one := hzero.le.trans (Nat.zero_le 1), claimed := fun _ => hclaimed, looked := ?looked,
    rests := ?rests, live := ?live }
  case idle =>
    intro t' ht'
    rcases errand_cases ht' with ⟨-, heq⟩ | ⟨hne, -⟩
    · exact nomatch heq
    · exact (Function.update_of_ne hne _ _).trans (hall t')
  case busy =>
    intro t' e he
    rcases errand_cases he with ⟨rfl, heq⟩ | ⟨hne, he⟩
    · rw [← Option.some.inj heq, Function.update_self]
      exact ⟨halong, fun _ => Operation.isOnSession_of_endsSession hends⟩
    · rw [Function.update_of_ne hne]
      exact hg.busy t' e he
  case sole => exact fun t₁ t₂ h₁ h₂ => (hupdate h₁).1.trans (hupdate h₂).1.symm
  case looked =>
    intro t' ht'
    exact nomatch (hupdate (ht' ▸ (nomatch ·))).2.symm.trans ht'
  case rests =>
    intro t' e _ ht'
    exact nomatch (hupdate (ht' ▸ (nomatch ·))).2.symm.trans ht'
  case live =>
    intro c hc hsession
    have hlive := hg.live c ((s.liveAfter_sublist o).subset hc) hsession
    exact hlive.imp fun _ h => h.start hpast o op

end

theorem Founded.leave (hg : Founded past g s) (hidle : g t = .idle) :
    Founded past g (s.setErrand t none) := by
  refine { hg with idle := fun t' ht' => ?_, busy := fun t' e he => ?_, rests := ?_, live := ?_ }
  · rcases errand_cases ht' with ⟨rfl, -⟩ | ⟨-, ht'⟩
    · exact hidle
    · exact hg.idle t' ht'
  · rcases errand_cases he with ⟨-, heq⟩ | ⟨-, he⟩
    · exact nomatch heq
    · exact hg.busy t' e he
  · intro t' e he ht'
    rcases errand_cases he with ⟨-, heq⟩ | ⟨-, he⟩
    · exact nomatch heq
    · exact (hg.rests t' e he ht').imp fun _ h => h.keep (List.Subset.refl _) rfl fun hgone =>
        hgone.setErrand fun _ heq => nomatch heq
  · exact fun c hc hsession => (hg.live c hc hsession).imp fun _ h =>
      h.keep (List.Subset.refl _) rfl fun hgone => hgone.setErrand fun _ heq => nomatch heq

theorem sessions_holdings (d : Deed) (p : Prize) :
    (p.holdings d).countP Holding.session = if p.isSession then 1 else 0 := by
  cases p <;> rfl

theorem Founded.finish (hg : Founded past g s) (hpast : past ⊆ past') {p : Prize}
    (he : s.errand t = some ⟨d, .done p⟩) : Founded past' (Function.update g t .idle)
      ({ s with live := s.live ++ p.holdings d }.setErrand t none) := by
  have hrests : ∀ {d' m}, Rests past s d' m →
      Rests past' ({ s with live := s.live ++ p.holdings d }.setErrand t none) d' m :=
    fun h => h.keep hpast rfl fun hgone => hgone.finish he
  have hsession : p.isSession = true → g t = .rests := fun hp => by
    obtain ⟨hof, -⟩ := hg.busy t _ he
    replace hof : g t = if p.isSession then .rests else .idle := hof
    rw [hof, if_pos hp]
  have hkeep : ∀ {t' b}, Function.update g t .idle t' = b → b ≠ .idle → t' ≠ t ∧ g t' = b := by
    intro t' b ht' hb
    have hne : t' ≠ t := fun heq => hb (by rw [← ht', heq, Function.update_self])
    exact ⟨hne, (Function.update_of_ne hne _ _).symm.trans ht'⟩
  have hcount : ({ s with live := s.live ++ p.holdings d }.setErrand t none).sessions
      = s.sessions + if p.isSession then 1 else 0 := by
    show (s.live ++ p.holdings d).countP Holding.session = _
    rw [List.countP_append, sessions_holdings]
    rfl
  have hbusy : p.isSession = true → g t ≠ .idle := fun hp => by
    rw [hsession hp]
    exact (nomatch ·)
  refine {
    idle := ?idle, busy := ?busy, sole := ?sole, alone := ?alone, one := ?one, claimed := ?claimed,
    looked := fun t' ht' => hg.looked t' (hkeep ht' (nomatch ·)).2, rests := ?rests, live := ?live }
  case idle =>
    intro t' ht'
    rcases errand_cases ht' with ⟨rfl, -⟩ | ⟨hne, ht'⟩
    · exact Function.update_self ..
    · exact (Function.update_of_ne hne _ _).trans (hg.idle t' ht')
  case busy =>
    intro t' e he'
    rcases errand_cases he' with ⟨-, heq⟩ | ⟨hne, he'⟩
    · exact nomatch heq
    · rw [Function.update_of_ne hne]
      exact hg.busy t' e he'
  case sole =>
    intro t₁ t₂ h₁ h₂
    obtain ⟨-, h₁'⟩ := hkeep rfl h₁
    obtain ⟨-, h₂'⟩ := hkeep rfl h₂
    exact hg.sole t₁ t₂ (h₁' ▸ h₁) (h₂' ▸ h₂)
  case alone =>
    intro t' ht'
    obtain ⟨hne, hof⟩ := hkeep rfl ht'
    have hp : ¬ p.isSession = true := fun hp => hne (hg.sole t' t (hof ▸ ht') (hbusy hp))
    rw [hcount, if_neg hp]
    exact hg.alone t' (hof ▸ ht')
  case one =>
    rw [hcount]
    split
    · rename_i hp
      rw [hg.alone t (hbusy hp)]
    · exact hg.one
  case claimed =>
    intro h
    refine hg.claimed ?_
    rcases h with ⟨t', ht'⟩ | h
    · exact .inl ⟨t', (hkeep rfl ht').2 ▸ ht'⟩
    · rw [hcount] at h
      split at h
      · rename_i hp
        exact .inl ⟨t, hbusy hp⟩
      · exact .inr h
  case rests =>
    intro t' e he' ht'
    rcases errand_cases he' with ⟨-, heq⟩ | ⟨hne, he'⟩
    · exact nomatch heq
    · exact (hg.rests t' e he' (hkeep ht' (nomatch ·)).2).imp fun _ => hrests
  case live =>
    intro c hc hc'
    rcases List.mem_append.mp hc with hc | hc
    · exact (hg.live c hc hc').imp fun _ => hrests
    · have hp : p.isSession = true := by
        cases p with
        | session x => rfl
        | handle x =>
          rw [List.mem_singleton.mp hc] at hc'
          exact nomatch hc'
        | nothing | refusal => exact absurd hc List.not_mem_nil
      rw [deed_of_mem_holdings hc]
      exact (hg.rests t _ he (hsession hp)).imp fun _ => hrests

theorem lifecycle_and_origin_perform {l : Ledger} {a : Access} (hen : a.isEnabled l.world = true)
    (hlife : l.world.lifecycle = some t) (horigin : l.origin = none) (hfree : a ≠ .freeLifecycle)
    (hpublish : ∀ size, a ≠ .publishTable size) (d : Deed) :
    (l.perform d t a).2.world.lifecycle = some t ∧ (l.perform d t a).2.origin = none := by
  have htake : a ≠ .takeLifecycle := fun ha => by
    rw [(a.isEnabled_iff l.world).mp hen ha] at hlife
    exact nomatch hlife
  rw [l.world_perform, Access.lifecycle_perform (a.isOnLifecycle_eq_false_iff.mpr ⟨htake, hfree⟩)]
  refine ⟨hlife, ?_⟩
  cases a with
  | publishTable size => exact absurd rfl (hpublish size)
  | withdrawTable => rfl
  | _ => exact horigin

/-- A session that is alive, or is being begun, keeps other sessions from ending. -/
theorem Founded.off_session (hg : Founded past g s) {next : Unit → Program Prize}
    (he : s.errand t = some ⟨d, .step .withdrawTable next⟩)
    (h : s.sessions ≠ 0 ∨ ∃ t', g t' = .rests) : d.operation.isOnSession = false := by
  obtain ⟨⟨hallow, -⟩, -⟩ := hg.busy t _ he
  refine Bool.eq_false_iff.mpr fun hon => ?_
  have hleaving : g t = .leaving := hallow hon
  rcases h with h | ⟨t', ht'⟩
  · exact h (hg.alone t (hleaving ▸ (nomatch ·)))
  · have htt := hg.sole t t' (hleaving ▸ (nomatch ·)) (ht' ▸ (nomatch ·))
    rw [← htt, hleaving] at ht'
    exact nomatch ht'

section
variable {a : Access} {next : a.Reply → Program Prize}

/-- A call that has found no table has the lifecycle lock, and nobody has made a table since. -/
theorem Founded.looked_perform (hg : Founded past g s) (hs : Sound False s) (hf : Tenured f s)
    (he : s.errand t = some ⟨d, .step a next⟩) (hen : a.isEnabled s.world = true)
    (hl : (Watch.footing d.operation.isOnSession).leads (g t) a s.world .looked) :
    (s.ledger.perform d t a).2.world.lifecycle = some t ∧
      (s.ledger.perform d t a).2.origin = none := by
  rcases Watch.looked_cases hl with ⟨hlooked, hpublish⟩ | ⟨hclaimed, rfl, hsize⟩
  · obtain ⟨⟨hallow, -⟩, -⟩ := hg.busy t _ he
    obtain ⟨hlife, horigin⟩ := hg.looked t hlooked
    have hfree : a ≠ .freeLifecycle := fun ha => by
      subst ha
      exact hallow hlooked
    exact lifecycle_and_origin_perform hen hlife horigin hfree hpublish d
  · obtain ⟨⟨hin, -⟩, hfits⟩ := hf.busy t _ he
    have hon := (hg.busy t _ he).2 (hclaimed ▸ (nomatch ·))
    exact ⟨hfits.inside (hin hon), hs.ledger.origin_eq_none hsize⟩

/-- A call rests on the table that it has made or found. -/
theorem Founded.rests_perform (hg : Founded past g s) (hs : Sound False s) (hf : Tenured f s)
    (he : s.errand t = some ⟨d, .step a next⟩) (hen : a.isEnabled s.world = true)
    (hl : (Watch.footing d.operation.isOnSession).leads (g t) a s.world .rests)
    (rest : Program Prize) : ∃ m, Rests (past ++ (s.finding? (.go t)).toList)
      ({ s with ledger := (s.ledger.perform d t a).2 }.setErrand t (some ⟨d, rest⟩)) d m := by
  rcases Watch.rests_cases hl with hrests | ⟨-, rfl, hsize⟩ | ⟨-, size, rfl⟩
  · obtain ⟨m, hm⟩ := hg.rests t _ he hrests
    refine ⟨m, hm.perform (List.subset_append_left _ _) hs hf he hen (fun ha => ?_) _⟩
    subst ha
    exact hg.off_session he (.inr ⟨t, hrests⟩)
  · -- the table that is found is the one of its origin
    have htable : s.world.isInstalled = s.ledger.origin.isSome := hs.ledger.table
    rw [World.isInstalled_eq, hsize] at htable
    obtain ⟨m, hm⟩ := Option.isSome_iff_exists.mp htable.symm
    refine ⟨m, .inr (List.mem_append_right _ ?_), .inl hm⟩
    rw [finding?_of_loadTable he hm]
    exact List.mem_singleton_self _
  · exact ⟨d, .inl rfl, .inl rfl⟩

/-- With an access of the errand of `t` all of this comes to hold with how far it has come then, if
nobody else has the claim. -/
theorem Founded.pass (hg : Founded past g s) (hs : Sound False s) (hf : Tenured f s)
    (he : s.errand t = some ⟨d, .step a next⟩) (hen : a.isEnabled s.world = true) {b : Footing}
    (hl : (Watch.footing d.operation.isOnSession).leads (g t) a s.world b)
    (hb : b ≠ .idle → d.operation.isOnSession = true ∧ s.sessions = 0 ∧ ∀ t', t' ≠ t → g t' = .idle)
    (hclaimed : b ≠ .idle ∨ (∃ t', t' ≠ t ∧ g t' ≠ .idle) ∨ s.sessions ≠ 0 →
      (a.perform t s.world).2.claimed = true) :
    Founded (past ++ (s.finding? (.go t)).toList) (Function.update g t b)
      ({ s with ledger := (s.ledger.perform d t a).2 }.setErrand t
        (some ⟨d, next (a.perform t s.world).1⟩)) := by
  have hadm := hs.admits he hen
  have hother : ∀ {t'}, t' ≠ t → Function.update g t b t' = g t' :=
    fun hne => Function.update_of_ne hne _ _
  -- what another call or a session relies on is still there, or its handle has gone away
  have hkeep : ∀ {d' m}, Rests past s d' m → (s.sessions ≠ 0 ∨ ∃ t', g t' = .rests) →
      Rests (past ++ (s.finding? (.go t)).toList)
        ({ s with ledger := (s.ledger.perform d t a).2 }.setErrand t
          (some ⟨d, next (a.perform t s.world).1⟩)) d' m := by
    intro d' m hm h
    refine hm.perform (List.subset_append_left _ _) hs hf he hen (fun ha => ?_) _
    subst ha
    exact hg.off_session he h
  refine {
    idle := ?idle, busy := ?busy, sole := ?sole, alone := ?alone, one := hg.one,
    claimed := ?claimed, looked := ?looked, rests := ?rests, live := ?live }
  case idle =>
    intro t' ht'
    rcases errand_cases ht' with ⟨-, heq⟩ | ⟨hne, ht'⟩
    · exact nomatch heq
    · exact (hother hne).trans (hg.idle t' ht')
  case busy =>
    intro t' e he'
    rcases errand_cases he' with ⟨rfl, heq⟩ | ⟨hne, he'⟩
    · obtain ⟨⟨-, hnext⟩, -⟩ := hg.busy t' _ he
      rw [← Option.some.inj heq, Function.update_self]
      exact ⟨hnext _ s.world b hl, fun hne => (hb hne).1⟩
    · rw [hother hne]
      exact hg.busy t' e he'
  case sole =>
    intro t₁ t₂ h₁ h₂
    by_cases ht₁ : t₁ = t
    · by_cases ht₂ : t₂ = t
      · rw [ht₁, ht₂]
      · rw [ht₁, Function.update_self] at h₁
        exact absurd ((hother ht₂).trans ((hb h₁).2.2 t₂ ht₂)) h₂
    · by_cases ht₂ : t₂ = t
      · rw [ht₂, Function.update_self] at h₂
        exact absurd ((hother ht₁).trans ((hb h₂).2.2 t₁ ht₁)) h₁
      · exact hg.sole t₁ t₂ (hother ht₁ ▸ h₁) (hother ht₂ ▸ h₂)
  case alone =>
    intro t' ht'
    by_cases htt : t' = t
    · rw [htt, Function.update_self] at ht'
      exact (hb ht').2.1
    · exact hg.alone t' (hother htt ▸ ht')
  case claimed =>
    intro h
    show (s.ledger.perform d t a).2.world.claimed = true
    rw [s.ledger.world_perform]
    refine hclaimed ?_
    rcases h with ⟨t', ht'⟩ | h
    · by_cases htt : t' = t
      · rw [htt, Function.update_self] at ht'
        exact .inl ht'
      · exact .inr (.inl ⟨t', htt, hother htt ▸ ht'⟩)
    · exact .inr (.inr h)
  case looked =>
    intro t' ht'
    by_cases htt : t' = t
    · rw [htt, Function.update_self] at ht'
      rw [htt]
      exact hg.looked_perform hs hf he hen (ht' ▸ hl)
    · obtain ⟨hlife, horigin⟩ := hg.looked t' (hother htt ▸ ht')
      -- another call, by which the lock is held, counts on that
      have hrely : s.ledger.Rely False ⟨d.call + 1, d.operation⟩ t' (s.ledger.perform d t a).2 :=
        hadm.rely hen (Ne.symm htt) (Nat.ne_of_lt (Nat.lt_succ_self _))
      obtain ⟨hlife', -, -, -, horigin', -⟩ := hrely.inside hlife
      exact ⟨hlife', horigin'.trans horigin⟩
  case rests =>
    intro t' e he' ht'
    rcases errand_cases he' with ⟨rfl, heq⟩ | ⟨hne, he'⟩
    · rw [Function.update_self] at ht'
      rw [← Option.some.inj heq]
      exact hg.rests_perform hs hf he hen (ht' ▸ hl) _
    · rw [hother hne] at ht'
      exact (hg.rests t' e he' ht').imp fun _ hm => hkeep hm (.inr ⟨t', ht'⟩)
  case live =>
    intro c hc hc'
    have hsome : s.sessions ≠ 0 := (List.countP_pos_iff.mpr ⟨c, hc, hc'⟩).ne'
    exact (hg.live c hc hc').imp fun _ hm => hkeep hm (.inl hsome)

end

theorem Founded.perform (hg : Founded past g s) (hs : Sound False s) (hf : Tenured f s) {a : Access}
    {next : a.Reply → Program Prize} (he : s.errand t = some ⟨d, .step a next⟩)
    (hen : a.isEnabled s.world = true) :
    ∃ g', Founded (past ++ (s.finding? (.go t)).toList) g'
      ({ s with ledger := (s.ledger.perform d t a).2 }.setErrand t
        (some ⟨d, next (a.perform t s.world).1⟩)) := by
  obtain ⟨⟨hallow, -⟩, hon⟩ := hg.busy t _ he
  obtain ⟨b, hl⟩ : ∃ b, (Watch.footing d.operation.isOnSession).leads (g t) a s.world b := by
    refine Watch.exists_footing fun hlooked => ?_
    by_contra hne
    obtain ⟨x, hx⟩ := Option.ne_none_iff_exists'.mp hne
    obtain ⟨m, hm, -⟩ := hf.slot x hx
    exact nomatch (hg.looked t hlooked).2.symm.trans hm
  refine ⟨Function.update g t b, ?_⟩
  by_cases hclaim : a = .claim
  · subst hclaim
    obtain ⟨hsession, -⟩ := hallow
    refine hg.pass hs hf he hen hl (fun hb => ⟨hsession, ?_⟩) fun _ => rfl
    -- the claim is granted only if nobody has it
    have hfirst : ¬ s.world.claimed = true := fun hc => hb (hl.trans (if_pos hc))
    exact ⟨not_not.mp fun h => hfirst (hg.claimed (.inr h)),
      fun t' _ => not_not.mp fun h => hfirst (hg.claimed (.inl ⟨t', h⟩))⟩
  by_cases hunclaim : a = .unclaim
  · subst hunclaim
    have hidle : b = .idle := hl
    refine hg.pass hs hf he hen hl (absurd hidle) fun h => ?_
    rcases h with h | ⟨t', hne, h⟩ | h
    · exact absurd hidle h
    · exact absurd (hg.sole t' t h hallow) hne
    · exact absurd (hg.alone t hallow) h
  · have hidle := Watch.eq_idle_iff hl hclaim hunclaim
    refine hg.pass hs hf he hen hl (fun hb => ?_) fun h => ?_
    · have hgt : g t ≠ .idle := mt hidle.mpr hb
      exact ⟨hon hgt, hg.alone t hgt, fun t' hne => not_not.mp fun h => hne (hg.sole t' t h hgt)⟩
    · rw [Access.claimed_perform hclaim hunclaim]
      rcases h with h | ⟨t', -, h⟩ | h
      · exact hg.claimed (.inl ⟨t, mt hidle.mpr h⟩)
      · exact hg.claimed (.inl ⟨t', h⟩)
      · exact hg.claimed (.inr h)

/-- A change of the process that leaves the claim and the lifecycle lock alone. -/
theorem Founded.setWorld (hg : Founded past g s) (hpast : past ⊆ past')
    (taken : List (Thread × Nat)) {w : World} (hlife : w.lifecycle = s.world.lifecycle)
    (hclaimed : w.claimed = s.world.claimed) :
    Founded past' g { s.setWorld w with taken := taken } where
  idle := hg.idle
  busy := hg.busy
  sole := hg.sole
  alone := hg.alone
  one := hg.one
  claimed := fun h => hclaimed.trans (hg.claimed h)
  looked := fun t ht => ⟨hlife.trans (hg.looked t ht).1, (hg.looked t ht).2⟩
  rests := fun t e he ht => (hg.rests t e he ht).imp fun _ h =>
    h.keep hpast rfl fun hgone => { hgone with }
  live := fun c hc hc' => (hg.live c hc hc').imp fun _ h =>
    h.keep hpast rfl fun hgone => { hgone with }

theorem claimed_outside (o : Outside) (w : World) : (o.apply w).claimed = w.claimed := by
  cases o with
  | register r x =>
    obtain ⟨slots, hs⟩ := w.register_eq r x
    rw [Outside.apply, hs]
  | registerId r x =>
    obtain ⟨slots, hs, -⟩ := w.registerId_eq r x
    rw [Outside.apply, hs]
  | _ => rfl

/-- **Every move preserves that sessions rely on tables that they have made or found.** -/
theorem Founded.step (hg : Founded past g s) (hs : Sound False s) (hf : Tenured f s) {mv : Move}
    (hm : s.step mv = .ok s') : ∃ g', Founded (past ++ (s.finding? mv).toList) g' s' := by
  have hpast : past ⊆ past ++ (s.finding? mv).toList := List.subset_append_left _ _
  have hself : Founded (past ++ (s.finding? mv).toList) g s :=
    hg.setWorld hpast s.taken rfl rfl
  refine step_preserves_at (P := fun s' => ∃ g', Founded (past ++ (s.finding? mv).toList) g' s') hm
    ⟨g, hself⟩ ?start ?finish ?quit ?perform ?outside ?foreign ?served
  case start =>
    intro t o op _ hfree ho
    cases hends : op.endsSession with
    | false => exact ⟨g, hg.start_of_not_endsSession hpast hfree ho hends⟩
    | true => exact ⟨_, hg.start_of_endsSession hpast ho hends⟩
  case finish => exact fun t d p _ he => ⟨_, hg.finish hpast he⟩
  case quit => exact fun t d why _ he => ⟨g, hself.leave (hg.busy t _ he).1⟩
  case perform =>
    intro t d a next hmv he hen
    subst hmv
    exact hg.perform hs hf he hen
  case outside =>
    intro o _
    exact ⟨g, hg.setWorld hpast s.taken (outside_eq o s.world).1 (claimed_outside o s.world)⟩
  case foreign => exact fun k mode index line => ⟨g, hg.setWorld hpast s.taken rfl rfl⟩
  case served => exact fun _ _ _ _ _ _ _ => ⟨g, hg.setWorld hpast _ rfl rfl⟩

/-! ## readiness -/

variable {edition : Edition} {reported : Nat → Nat} {hostLocks : Int32} {ms : List Move}

/-- All of this holds after every peaceful run. -/
theorem founded_run (hp : ∀ mv ∈ ms, mv.isPeaceful = true)
    (hr : run ms (initial edition reported hostLocks) = .ok s) :
    Sound False s ∧ ∃ g, Founded (findings ms (initial edition reported hostLocks)) g s := by
  have h : Sound False s ∧ (∃ f, Tenured f s) ∧
      ∃ g, Founded ([] ++ findings ms (initial edition reported hostLocks)) g s := by
    refine gather_induction
      (P := fun past s => Sound False s ∧ (∃ f, Tenured f s) ∧ ∃ g, Founded past g s) ?_ ?_ hr
    · rintro mv hmv past s₁ s₂ ⟨hs, ⟨f, hf⟩, g, hg⟩ hstep
      exact ⟨hs.step False.elim hstep, hf.step hs (hp mv hmv) hstep, hg.step hs hf hstep⟩
    · exact ⟨sound_initial False edition reported hostLocks,
        ⟨_, tenured_initial edition reported hostLocks⟩,
        ⟨_, founded_initial edition reported hostLocks⟩⟩
  rw [List.nil_append] at h
  exact ⟨h.1, h.2.2⟩

/-- **A session is ready, unless the handle of the table that it found has gone away.**  Threads
make tables, with handles and without, handles go away, and sessions begin and end; nobody removes a
table by name, and nobody else writes into the slots of the host.  A session that has made its own
table is ready as long as it is alive, and so is one that has found a table without a handle. -/
theorem session_stays_ready (hp : ∀ mv ∈ ms, mv.isPeaceful = true)
    (hr : run ms (initial edition reported hostLocks) = .ok s) :
    ∀ c ∈ s.live, c.session = true →
      (∀ t, (c.handle.isReady.run t s.world).1 = .ok true) ∨
        ∃ m r, (c.deed, m) ∈ findings ms (initial edition reported hostLocks) ∧
          m.operation = .newHandle r ∧ s.IsGivenUp m := by
  obtain ⟨hs, g, hg⟩ := founded_run hp hr
  intro c hc hsession
  obtain ⟨m, hfound, hm | ⟨⟨r, hr⟩, hgone⟩⟩ := hg.live c hc hsession
  · refine .inl fun t => ?_
    have htable : s.world.isInstalled = s.ledger.origin.isSome := hs.ledger.table
    rw [Handle.run_isReady, htable, hm]
    rfl
  · refine .inr ⟨m, r, hfound.resolve_left fun heq => ?_, hr, hgone⟩
    -- a session that is alive has not gone away
    exact hgone.absent c hc (congrArg Deed.call heq)

/-- A session makes its own table; a handle comes and goes. -/
def visitor : List Move := List.flatten
  [Move.inARow .main .beginSession 18, Move.inARow (.worker 0) (.newHandle (.recorder 0)) 5,
    Move.inARow (.worker 0) (.drop 1) 1]

theorem session_stays_ready_visitor : ∃ s,
    run visitor (initial .legacy (fun _ => 2) 3) = .ok s ∧ s.live.map Holding.session = [true] ∧
    ∀ c ∈ s.live, ∀ t, (c.handle.isReady.run t s.world).1 = .ok true := by
  obtain ⟨s, hr, hlive, hfound⟩ : ∃ s, run visitor (initial .legacy (fun _ => 2) 3) = .ok s ∧
      s.live = [⟨⟨0, .beginSession⟩, ⟨.host, some 1⟩, true⟩] ∧
      findings visitor (initial .legacy (fun _ => 2) 3)
        = [(⟨1, .newHandle (.recorder 0)⟩, ⟨0, .beginSession⟩)] := ⟨_, rfl, by cbv, by cbv⟩
  have hready := session_stays_ready (by decide) hr
  rw [hlive, hfound] at hready
  refine ⟨s, hr, by rw [hlive]; rfl, fun c hc => ?_⟩
  rw [hlive] at hc
  refine (hready c hc (List.mem_singleton.mp hc ▸ rfl)).resolve_right fun h => ?_
  obtain ⟨m, r, hm, -⟩ := h
  rw [List.mem_singleton.mp hc] at hm
  cases hm with
  | tail _ hm => cases hm

/-- A session finds the table of a handle, and the handle goes away. -/
def guest : List Move := List.flatten
  [Move.inARow .main (.newHandle .host) 12, Move.inARow .main .beginSession 12,
    Move.inARow .main (.drop 0) 12]

theorem session_left_unready : (∀ mv ∈ guest, mv.isPeaceful = true) ∧
    ∃ s, run guest (initial .legacy (fun _ => 2) 3) = .ok s ∧
      ∃ c ∈ s.live, c.session = true ∧ (c.handle.isReady.run .main s.world).1 = .ok false := by
  obtain ⟨s, hr, hlive, hready⟩ : ∃ s, run guest (initial .legacy (fun _ => 2) 3) = .ok s ∧
      s.live = [⟨⟨1, .beginSession⟩, ⟨.host, none⟩, true⟩] ∧
      ((Handle.mk .host none).isReady.run .main s.world).1 = .ok false := ⟨_, rfl, by cbv, by cbv⟩
  exact ⟨by decide, s, hr, _, hlive ▸ List.mem_singleton_self _, rfl, hready⟩

end Workshop

end CallbackLocks
