import Mathlib.Data.List.Perm.Basic
import CallbackLocks.Proofs.Concert.Claim
import CallbackLocks.Proofs.Runs.Record

/-!
# Who has loaded the host library

A legacy host is started, loads its error strings and drops all of it again only for whoever has the
claim on the one session.  So what has been loaded and not been dropped can be told from who has the
claim, and how far that one has come.

* `Loading`          how far the host library has been loaded
* `Watch.loading`    what a call does about it, step by step
* `Operation.loading_along`   **every operation goes by these steps**
* `World.starts`, `loads`, `cleanings`   what an observer has seen of it
* `Keeper`           who has the claim: nobody, a call that is under way, or a session
* `Workshop.Kept`    what has been seen agrees with how far the keeper has come
* `Workshop.exists_kept_run`   **it does after every run**
-/

namespace CallbackLocks

open Program

/-! ## one call -/

/-- How far the host library has been loaded by the one that has the claim. -/
inductive Loading where
  | claimed
  | started
  | loaded
deriving DecidableEq

def Access.isOfLoading : Access → Bool
  | claim | unclaim | startHost | loadErrorStrings | cleanAlgorithms => true
  | _ => false

/-- With the claim, which a call about sessions may get, the host library is started, loads its
strings and drops what it has loaded, in this order; then the claim is given back. -/
def Watch.loading (onSession : Bool) : Watch (Option Loading) where
  allows := fun b a => match a with
    | .claim => onSession = true ∧ b = none
    | .startHost | .unclaim => b = some .claimed
    | .loadErrorStrings => b = some .started
    | .cleanAlgorithms => b = some .loaded
    | _ => True
  leads := fun b a w b' => match a with
    | .claim => b' = if w.claimed then none else some .claimed
    | .startHost => b' = some (if w.startCode = 1 then .started else .claimed)
    | .loadErrorStrings => b' = some .loaded
    | .cleanAlgorithms => b' = some .claimed
    | .unclaim => b' = none
    | _ => b' = b
  quits := fun b => b = none

section
variable {on : Bool} {b : Option Loading} {a : Access}

theorem Watch.ignores_loading (h : a.isOfLoading = false) : (loading on).Ignores b a := by
  cases a with
  | claim | unclaim | startHost | loadErrorStrings | cleanAlgorithms => exact nomatch h
  | _ => exact ⟨trivial, fun _ _ hb => hb⟩

theorem Watch.ignores_loading_install :
    ∀ a, a.isOfInstall = true → (loading on).Ignores b a := by
  intro a ha
  apply ignores_loading
  cases a with
  | claim | unclaim | startHost | loadErrorStrings | cleanAlgorithms => exact nomatch ha
  | _ => rfl

theorem Watch.ignores_loading_removal :
    ∀ a, a.isOfRemoval = true → (loading on).Ignores b a := by
  intro a ha
  apply ignores_loading
  cases a with
  | claim | unclaim | startHost | loadErrorStrings | cleanAlgorithms => exact nomatch ha
  | _ => rfl

end

namespace Session

theorem start_loading : (start .legacy).Along (.loading true)
    (fun b x => b = some (if x.isOk then .loaded else .claimed)) (some .claimed) := by
  refine ⟨rfl, fun who w b hb => ?_⟩
  replace hb : b = some (if w.startCode = 1 then .started else .claimed) := hb
  show (if w.startCode = 1 then _ else _ : Program _).Along _ _ _
  rw [hb]
  split
  · refine ⟨rfl, fun _ _ b hb => ?_⟩
    exact hb
  · exact Along.skip (Watch.ignores_loading rfl) fun _ _ => rfl

theorem cleanUp_loading :
    (cleanUp .legacy).Along (.loading true) (fun b _ => b = some .claimed) (some .loaded) := by
  refine ⟨rfl, fun _ _ b hb => ?_⟩
  obtain rfl : b = some .claimed := hb
  refine Along.skip (Watch.ignores_loading rfl) fun _ _ => ?_
  exact Along.skip (Watch.ignores_loading rfl) fun _ _ => rfl

theorem seed_loading {b : Option Loading} :
    seed.Along (.loading true) (fun b' _ => b' = b) b := by
  refine Along.skip (Watch.ignores_loading rfl) fun who w => ?_
  show (if w.seeded then _ else _ : Program _).Along _ _ _
  split
  · exact Along.skip (Watch.ignores_loading rfl) fun _ _ => rfl
  · exact rfl

/-- The host library is loaded after a bring-up that has succeeded, and not after one that has
failed. -/
theorem bringUp_loading : (bringUp .legacy).Along (.loading true)
    (fun b x => b = some (if x.isOk then .loaded else .claimed)) (some .claimed) := by
  refine start_loading.bind fun b started hb => ?_
  rw [hb]
  cases started with
  | error f => exact rfl
  | ok _ =>
    refine (Handle.install_along Watch.ignores_loading_install (.inl rfl)).bind fun b handle hb => ?_
    rw [hb]
    refine seed_loading.bind fun b seeded hb => ?_
    rw [hb]
    cases seeded with
    | ok _ => exact rfl
    | error f =>
      refine cleanUp_loading.bind fun b _ hb => ?_
      rw [hb]
      exact (handle.drop_along Watch.ignores_loading_removal).bind fun _ _ hb => hb

theorem begin_loading : (begin .legacy).Along (.loading true)
    (fun b x => b = if x.isOk then some .loaded else none) none := by
  refine ⟨⟨rfl, rfl⟩, fun who w b hb => ?_⟩
  replace hb : b = if w.claimed then none else some .claimed := hb
  show (if w.claimed.not = true then _ else _ : Program _).Along _ _ _
  rw [hb]
  cases w.claimed with
  | true => exact rfl
  | false =>
    refine bringUp_loading.bind fun b brought hb => ?_
    rw [hb]
    cases brought with
    | ok handle => exact Along.skip (Watch.ignores_loading rfl) fun _ _ => rfl
    | error f => exact ⟨rfl, fun _ _ _ hb => hb⟩

theorem finish_loading (x : Session) :
    (x.finish .legacy).Along (.loading true) (fun b _ => b = none) (some .loaded) := by
  refine cleanUp_loading.bind fun b _ hb => ?_
  rw [hb]
  refine (x.handle.release_along Watch.ignores_loading_removal).bind fun b handle hb => ?_
  rw [hb.1]
  refine ⟨rfl, fun _ _ b hb => ?_⟩
  obtain rfl : b = none := hb
  refine Along.skip (Watch.ignores_loading rfl) fun _ _ => ?_
  exact handle.drop_along Watch.ignores_loading_removal

end Session

namespace Operation

def isOnSession : Operation → Bool
  | beginSession | finishSession _ => true
  | _ => false

def endsSession : Operation → Bool
  | finishSession _ => true
  | _ => false

theorem isOnSession_of_endsSession {op : Operation} (h : op.endsSession = true) :
    op.isOnSession = true := by
  cases op with
  | finishSession x => rfl
  | _ => exact nomatch h

/-- Whoever watches for sessions sees nothing of an operation on tables. -/
theorem table_along {σ : Type} {m : Watch σ} {b : σ} {op : Operation}
    (hi : ∀ a, a.isOfInstall = true → m.Ignores b a)
    (hr : ∀ a, a.isOfRemoval = true → m.Ignores b a) (hq : m.quits b) (e : Edition)
    (h : op.isOnSession = false) :
    (op.program e).Along m (fun b' p => b' = b ∧ p.isSession = false) b := by
  cases op with
  | install r => exact (Lifecycle.install_along hi (.inr hq)).bind fun _ _ hb => ⟨hb, rfl⟩
  | newHandle r => exact (Handle.install_along hi (.inr hq)).bind fun _ _ hb => ⟨hb, rfl⟩
  | teardown r => exact (Lifecycle.teardown_along hr).bind fun _ _ hb => ⟨hb, rfl⟩
  | drop x => exact (x.drop_along hr).bind fun _ _ hb => ⟨hb, rfl⟩
  | uninstall x =>
    have hd := x.drop_along hr
    rw [← x.uninstall_eq_drop] at hd
    exact hd.bind fun _ _ hb => ⟨hb, rfl⟩
  | ask x => exact x.inquiry_along fun a ha => hr a (Access.isOfRemoval_of_isOfInquiry ha)
  | beginSession | finishSession x => exact nomatch h

/-- **Every operation loads the host library and has it drop what it loaded step by step.**  It has
been loaded before an operation that ends a session and after one that has begun one. -/
theorem loading_along (op : Operation) : (op.program .legacy).Along (.loading op.isOnSession)
    (fun b p => b = if p.isSession then some .loaded else none)
    (if op.endsSession then some .loaded else none) := by
  cases hon : op.isOnSession with
  | false =>
    have hends : op.endsSession = false :=
      Bool.eq_false_iff.mpr fun h => nomatch hon.symm.trans (isOnSession_of_endsSession h)
    rw [hends]
    refine (table_along Watch.ignores_loading_install Watch.ignores_loading_removal rfl _ hon).mono
      fun b p hb => ?_
    rw [hb.1, hb.2]
    rfl
  | true =>
    cases op with
    | beginSession =>
      refine Session.begin_loading.bind fun b begun hb => ?_
      cases begun with
      | ok x => exact hb
      | error f => exact hb
    | finishSession x => exact (Session.finish_loading x).bind fun _ _ hb => hb
    | _ => exact nomatch hon

end Operation

/-! ## what an observer has seen -/

namespace World

/-- how often the host library has been started with success -/
def starts (w : World) : Nat := w.trace.count (.call (.startHost 1))

/-- how often it has loaded its error strings -/
def loads (w : World) : Nat := w.trace.count (.call .loadErrorStrings)

/-- how often it has been told to drop its algorithms -/
def cleanings (w : World) : Nat := w.trace.countP fun
  | .call (.cleanAlgorithms _) => true
  | _ => false

end World

namespace Access

def starts (w : World) : Access → Nat
  | startHost => if w.startCode = 1 then 1 else 0
  | _ => 0

def loads : Access → Nat
  | loadErrorStrings => 1
  | _ => 0

def cleanings : Access → Nat
  | cleanAlgorithms => 1
  | _ => 0

variable (a : Access) (who : Thread) (w : World)

theorem starts_perform : (a.perform who w).2.starts = w.starts + a.starts w := by
  cases a <;> simp [perform, starts, World.saw, World.setQueue, World.starts, List.count_singleton]

theorem loads_perform : (a.perform who w).2.loads = w.loads + a.loads := by
  cases a <;> simp [perform, loads, World.saw, World.setQueue, World.loads]

theorem cleanings_perform : (a.perform who w).2.cleanings = w.cleanings + a.cleanings := by
  cases a <;> simp [perform, cleanings, World.saw, World.setQueue, World.cleanings]

end Access

/-! ## who has the claim -/

/-- Who has the claim. -/
inductive Keeper where
  | nobody
  | caller (t : Thread) (b : Loading)
  | session
deriving DecidableEq

namespace Keeper

/-- how far the host library has been loaded by the one that has the claim -/
def stage : Keeper → Option Loading
  | nobody => none
  | caller _ b => some b
  | session => some .loaded

/-- how far it has been loaded by a call of `t` -/
def of (t : Thread) : Keeper → Option Loading
  | caller t' b => if t = t' then some b else none
  | _ => none

def starts (k : Keeper) : Nat := if k.stage = none ∨ k.stage = some .claimed then 0 else 1
def loads (k : Keeper) : Nat := if k.stage = some .loaded then 1 else 0
def sessions (k : Keeper) : Nat := if k = session then 1 else 0

variable {k : Keeper} {t : Thread} {b : Loading}

theorem of_caller_self (t : Thread) (b : Loading) : (caller t b).of t = some b := if_pos rfl

theorem of_caller_of_ne {t' : Thread} (h : t' ≠ t) : (caller t b).of t' = none := if_neg h

theorem eq_of_of (h : k.of t = some b) : k = caller t b := by
  cases k with
  | nobody | session => exact nomatch h
  | caller t' b' =>
    replace h : (if t = t' then some b' else none) = some b := h
    split at h
    · rename_i ht
      rw [ht, Option.some.inj h]
    · exact nomatch h

end Keeper

/-! ## threads at work -/

namespace Workshop

def sessions (s : Workshop) : Nat := s.live.countP Holding.session

/-- What has been seen of the host library agrees with who has the claim and how far that one has
loaded it. -/
structure Kept (k : Keeper) (s : Workshop) : Prop where
  edition : s.world.edition = .legacy
  idle : ∀ t, s.errand t = none → k.of t = none
  busy : ∀ t e, s.errand t = some e →
    e.rest.Along (.loading e.deed.operation.isOnSession)
      (fun b p => b = if p.isSession then some .loaded else none) (k.of t) ∧
    (e.deed.operation.isOnSession = false → k.of t = none)
  claimed : s.world.claimed = k.stage.isSome
  sessions : s.sessions = k.sessions
  starts : s.world.starts = s.world.cleanings + k.starts
  loads : s.world.loads = s.world.cleanings + k.loads

variable {k : Keeper} {s s' : Workshop} {t : Thread} {d : Deed}

theorem kept_initial (reported : Nat → Nat) (hostLocks : Int32) :
    Kept .nobody (initial .legacy reported hostLocks) where
  edition := rfl
  idle := fun _ _ => rfl
  busy := fun _ _ h => nomatch h
  claimed := rfl
  sessions := rfl
  starts := rfl
  loads := rfl

theorem sessions_eq_of_operation {o : Order} {op : Operation} (h : s.operation o = some op) :
    s.sessions = (s.liveAfter o).countP Holding.session + if op.endsSession then 1 else 0 := by
  have herase : ∀ {i : Nat} {c : Holding}, s.live[i]? = some c → s.sessions
      = (s.live.eraseIdx i).countP Holding.session + if c.session then 1 else 0 := by
    intro i c hi
    obtain ⟨hlt, rfl⟩ := List.getElem?_eq_some_iff.mp hi
    rw [sessions, ← (List.getElem_cons_eraseIdx_perm hlt).countP_eq, List.countP_cons]
  cases o with
  | install | teardown | newHandle | beginSession =>
    rw [← Option.some.inj h]
    rfl
  | ask i =>
    obtain ⟨_, -, rfl⟩ := Option.map_eq_some_iff.mp h
    rfl
  | drop i | uninstall i | finishSession i =>
    simp only [operation] at h
    split at h
    · rename_i hi
      rw [← Option.some.inj h]
      exact herase hi
    · exact nomatch h

theorem Kept.start (h : Kept k s) {o : Order} {op : Operation} (hfree : s.isFree t = true)
    (ho : s.operation o = some op) : ∃ k', Kept k'
      ({ s with calls := s.calls + 1, live := s.liveAfter o }.setErrand t
        (some ⟨⟨s.calls, op⟩, op.program s.world.edition⟩)) := by
  have hidle : s.errand t = none := errand_of_isFree hfree
  have hcount := sessions_eq_of_operation ho
  have halong := op.loading_along
  rw [← h.edition] at halong
  rw [h.sessions] at hcount
  cases hends : op.endsSession with
  | false =>
    rw [hends] at hcount halong
    refine ⟨k, h.edition, fun t' ht' => ?_, fun t' e he => ?_, h.claimed, hcount.symm, h.starts,
      h.loads⟩
    · rcases errand_cases ht' with ⟨-, heq⟩ | ⟨-, ht'⟩
      · exact nomatch heq
      · exact h.idle t' ht'
    · rcases errand_cases he with ⟨rfl, heq⟩ | ⟨-, he⟩
      · rw [← Option.some.inj heq, h.idle t' hidle]
        exact ⟨halong, fun _ => rfl⟩
      · exact h.busy t' e he
  | true =>
    rw [hends] at hcount halong
    -- a session that is alive has the claim
    have hk : k = .session := by
      by_contra hne
      rw [Keeper.sessions, if_neg hne] at hcount
      exact nomatch hcount
    subst hk
    refine ⟨.caller t .loaded, h.edition, fun t' ht' => ?_, fun t' e he => ?_, h.claimed, ?_,
      h.starts, h.loads⟩
    · rcases errand_cases ht' with ⟨-, heq⟩ | ⟨hne, ht'⟩
      · exact nomatch heq
      · exact Keeper.of_caller_of_ne hne
    · rcases errand_cases he with ⟨rfl, heq⟩ | ⟨hne, he⟩
      · rw [← Option.some.inj heq, Keeper.of_caller_self]
        exact ⟨halong, fun hon => nomatch hon.symm.trans (Operation.isOnSession_of_endsSession hends)⟩
      · rw [Keeper.of_caller_of_ne hne]
        exact h.busy t' e he
    · exact (Nat.succ.inj hcount).symm

theorem Kept.finish (h : Kept k s) {p : Prize} (he : s.errand t = some ⟨d, .done p⟩) :
    ∃ k', Kept k' ({ s with live := s.live ++ p.holdings d }.setErrand t none) := by
  obtain ⟨hof, -⟩ := h.busy t _ he
  replace hof : k.of t = if p.isSession then some .loaded else none := hof
  have hcount : ({ s with live := s.live ++ p.holdings d }.setErrand t none).sessions
      = k.sessions + if p.isSession then 1 else 0 := by
    show (s.live ++ p.holdings d).countP Holding.session = _
    rw [List.countP_append, ← h.sessions]
    cases p <;> rfl
  cases hp : p.isSession with
  | false =>
    rw [hp] at hof hcount
    refine ⟨k, h.edition, fun t' ht' => ?_, fun t' e he' => ?_, h.claimed, hcount, h.starts,
      h.loads⟩
    · rcases errand_cases ht' with ⟨rfl, -⟩ | ⟨-, ht'⟩
      · exact hof
      · exact h.idle t' ht'
    · rcases errand_cases he' with ⟨-, heq⟩ | ⟨-, he'⟩
      · exact nomatch heq
      · exact h.busy t' e he'
  | true =>
    rw [hp] at hof hcount
    obtain rfl := Keeper.eq_of_of hof
    refine ⟨.session, h.edition, fun _ _ => rfl, fun t' e he' => ?_, h.claimed, hcount, h.starts,
      h.loads⟩
    rcases errand_cases he' with ⟨-, heq⟩ | ⟨hne, he'⟩
    · exact nomatch heq
    · have hbusy := h.busy t' e he'
      rw [Keeper.of_caller_of_ne hne] at hbusy
      exact hbusy

theorem Kept.quit (h : Kept k s) {why : Abandoned} (he : s.errand t = some ⟨d, .abandon why⟩) :
    Kept k (s.setErrand t none) := by
  obtain ⟨hof, -⟩ := h.busy t _ he
  refine { h with idle := fun t' ht' => ?_, busy := fun t' e he' => ?_ }
  · rcases errand_cases ht' with ⟨rfl, -⟩ | ⟨-, ht'⟩
    · exact hof
    · exact h.idle t' ht'
  · rcases errand_cases he' with ⟨-, heq⟩ | ⟨-, he'⟩
    · exact nomatch heq
    · exact h.busy t' e he'

/-- With an access of the errand of `t` all of this comes to agree with a keeper `k'` that does not
differ from `k` as far as other threads are concerned. -/
theorem Kept.pass (h : Kept k s) {a : Access} {next : a.Reply → Program Prize}
    (he : s.errand t = some ⟨d, .step a next⟩) {k' : Keeper}
    (hl : (Watch.loading d.operation.isOnSession).leads (k.of t) a s.world (k'.of t))
    (hothers : ∀ t', t' ≠ t → k'.of t' = k.of t')
    (hon : d.operation.isOnSession = false → k'.of t = none)
    (hclaimed : (a.perform t s.world).2.claimed = k'.stage.isSome)
    (hsessions : k'.sessions = k.sessions)
    (hstarts : k.starts + a.starts s.world = k'.starts + a.cleanings)
    (hloads : k.loads + a.loads = k'.loads + a.cleanings) :
    Kept k' ({ s with ledger := (s.ledger.perform d t a).2 }.setErrand t
      (some ⟨d, next (a.perform t s.world).1⟩)) := by
  obtain ⟨⟨-, hnext⟩, -⟩ := h.busy t _ he
  have hworld : (s.ledger.perform d t a).2.world = (a.perform t s.world).2 :=
    s.ledger.world_perform d t a
  constructor
  case edition =>
    exact (congrArg World.edition hworld).trans ((edition_perform a t s.world).trans h.edition)
  case idle =>
    intro t' ht'
    rcases errand_cases ht' with ⟨-, heq⟩ | ⟨hne, ht'⟩
    · exact nomatch heq
    · exact (hothers t' hne).trans (h.idle t' ht')
  case busy =>
    intro t' e he'
    rcases errand_cases he' with ⟨rfl, heq⟩ | ⟨hne, he'⟩
    · rw [← Option.some.inj heq]
      exact ⟨hnext t' s.world _ hl, hon⟩
    · rw [hothers t' hne]
      exact h.busy t' e he'
  case claimed => exact (congrArg World.claimed hworld).trans hclaimed
  case sessions => exact h.sessions.trans hsessions.symm
  case starts =>
    show (s.ledger.perform d t a).2.world.starts = (s.ledger.perform d t a).2.world.cleanings + _
    rw [hworld, a.starts_perform, a.cleanings_perform, h.starts]
    omega
  case loads =>
    show (s.ledger.perform d t a).2.world.loads = (s.ledger.perform d t a).2.world.cleanings + _
    rw [hworld, a.loads_perform, a.cleanings_perform, h.loads]
    omega

theorem Kept.perform (h : Kept k s) {a : Access} {next : a.Reply → Program Prize}
    (he : s.errand t = some ⟨d, .step a next⟩) : ∃ k', Kept k'
      ({ s with ledger := (s.ledger.perform d t a).2 }.setErrand t
        (some ⟨d, next (a.perform t s.world).1⟩)) := by
  obtain ⟨⟨hallow, -⟩, hon⟩ := h.busy t _ he
  have hcaller : ∀ {b b' : Loading} (t'), t' ≠ t →
      Keeper.of t' (.caller t b) = Keeper.of t' (.caller t b') :=
    fun t' hne => (Keeper.of_caller_of_ne hne).trans (Keeper.of_caller_of_ne hne).symm
  cases a with
  | claim =>
    obtain ⟨hsession, hof⟩ : d.operation.isOnSession = true ∧ k.of t = none := hallow
    cases hc : s.world.claimed with
    | true =>
      have hl : k.of t = if s.world.claimed then none else some .claimed := by rw [hc, hof]; rfl
      exact ⟨k, h.pass he hl (fun _ _ => rfl) hon (hc.symm.trans h.claimed) rfl rfl rfl⟩
    | false =>
      obtain rfl : k = .nobody := by
        cases k with
        | nobody => rfl
        | caller | session => exact nomatch hc.symm.trans h.claimed
      have hl : Keeper.of t (.caller t .claimed) =
          if s.world.claimed then none else some .claimed := by
        rw [hc, Keeper.of_caller_self]
        rfl
      refine ⟨.caller t .claimed, h.pass he hl (fun t' hne => Keeper.of_caller_of_ne hne)
        (fun hon' => ?_) rfl rfl rfl rfl⟩
      exact nomatch hsession.symm.trans hon'
  | startHost =>
    obtain rfl := Keeper.eq_of_of hallow
    have hof := Keeper.of_caller_self t
    refine ⟨.caller t (if s.world.startCode = 1 then .started else .claimed), h.pass he (hof _) hcaller
      (fun hon' => nomatch (hof _).symm.trans (hon hon')) h.claimed rfl ?_ ?_⟩
    · simp only [Access.starts]
      split <;> rfl
    · split <;> rfl
  | loadErrorStrings =>
    obtain rfl := Keeper.eq_of_of hallow
    have hof := Keeper.of_caller_self t
    exact ⟨.caller t .loaded, h.pass he (hof _) hcaller
      (fun hon' => nomatch (hof _).symm.trans (hon hon')) h.claimed rfl rfl rfl⟩
  | cleanAlgorithms =>
    obtain rfl := Keeper.eq_of_of hallow
    have hof := Keeper.of_caller_self t
    exact ⟨.caller t .claimed, h.pass he (hof _) hcaller
      (fun hon' => nomatch (hof _).symm.trans (hon hon')) h.claimed rfl rfl rfl⟩
  | unclaim =>
    obtain rfl := Keeper.eq_of_of hallow
    exact ⟨.nobody, h.pass he rfl (fun t' hne => (Keeper.of_caller_of_ne hne).symm) (fun _ => rfl) rfl
      rfl rfl rfl⟩
  | _ =>
    refine ⟨k, h.pass he rfl (fun _ _ => rfl) hon
      (Eq.trans (Access.claimed_perform ?_ ?_ t s.world) h.claimed) rfl rfl rfl⟩
    · exact fun heq => nomatch heq
    · exact fun heq => nomatch heq

theorem Kept.outside (h : Kept k s) (o : Outside) : Kept k (s.setWorld (o.apply s.world)) := by
  have hsame : (o.apply s.world).claimed = s.world.claimed ∧
      (o.apply s.world).trace = s.world.trace := by
    cases o with
    | register r f =>
      obtain ⟨slots, hs⟩ := s.world.register_eq r f
      rw [Outside.apply, hs]
      exact ⟨rfl, rfl⟩
    | registerId r f =>
      obtain ⟨slots, hs, -⟩ := s.world.registerId_eq r f
      rw [Outside.apply, hs]
      exact ⟨rfl, rfl⟩
    | _ => exact ⟨rfl, rfl⟩
  refine { h with
    edition := (edition_outside o s.world).trans h.edition
    claimed := hsame.1.trans h.claimed
    starts := ?_
    loads := ?_ }
  · show List.count _ (o.apply s.world).trace = List.countP _ (o.apply s.world).trace + _
    rw [hsame.2]
    exact h.starts
  · show List.count _ (o.apply s.world).trace = List.countP _ (o.apply s.world).trace + _
    rw [hsame.2]
    exact h.loads

theorem Kept.foreign (h : Kept k s) (n : Nat) (mode index line : Int32) :
    Kept k (s.setWorld (s.world.saw (.call (.foreignLock n mode index line)))) := by
  refine { h with starts := ?_, loads := ?_ }
  · show List.count _ (s.world.trace ++ _) = List.countP _ (s.world.trace ++ _) + _
    rw [List.count_append, List.countP_append]
    exact h.starts
  · show List.count _ (s.world.trace ++ _) = List.countP _ (s.world.trace ++ _) + _
    rw [List.count_append, List.countP_append]
    exact h.loads

theorem exists_kept_step {m : Move} (h : ∃ k, Kept k s) (hm : s.step m = .ok s') :
    ∃ k, Kept k s' := by
  obtain ⟨k, hk⟩ := h
  refine step_preserves (P := fun s => ∃ k, Kept k s) hm ⟨k, hk⟩ ?start ?finish ?quit ?perform
    ?outside ?foreign ?served
  case start => exact fun t o op hfree ho => hk.start hfree ho
  case finish => exact fun t d p he => hk.finish he
  case quit => exact fun t d why he => ⟨k, hk.quit he⟩
  case perform => exact fun t d a next he _ => hk.perform he
  case outside => exact fun o => ⟨k, hk.outside o⟩
  case foreign => exact fun n mode index line => ⟨k, hk.foreign n mode index line⟩
  case served => exact fun _ _ _ _ _ _ _ => ⟨k, { hk with }⟩

/-- **What has been seen of the host library agrees with some keeper after every run.** -/
theorem exists_kept_run {ms : List Move} (h : ∃ k, Kept k s) (hr : run ms s = .ok s') :
    ∃ k, Kept k s' :=
  run_induction (P := fun _ s => ∃ k, Kept k s) (fun _ _ _ _ h hm => exists_kept_step h hm) h hr

end Workshop

end CallbackLocks
