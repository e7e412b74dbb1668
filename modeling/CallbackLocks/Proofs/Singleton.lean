import Mathlib
import CallbackLocks.Proofs.Concert.Claim

/-!
# At most one session

Threads begin sessions and end them, access by access, while others install and remove tables and
other parties do as they like.

* `Holder`           who has the claim: the session that is alive, a thread, or nobody
* `Concert.IsInside`   the thread is in the middle of a call that has the claim
* `Concert.Claimed`  one has the claim; `Claimed.step`, **and whatever happens, one will**
* `Concert.Minds`    every call does what it may do with the claim or without it
* `Concert.Faithful.begins`   what comes of a call that asks for the claim
* `Concert.Faithful.course`, `Faithful.endCourse`   what a call that has ended has done
* `Concert.one_session_at_a_time`   **sessions come and go one at a time, and none is lost**
-/

namespace CallbackLocks

open Function (update)
open Program (ofResult)

variable {e : Edition}

def Underway.isInside (u : Underway (sessions e)) : Bool :=
  u.acts.foldl Act.hasClaim u.task.request.endsSession

inductive Holder where
  | nobody
  | session
  | thread (t : Thread)
deriving DecidableEq, Inhabited

namespace Concert

variable {s s' : Concert (sessions e)} {t t' : Thread} {h : Holder}
  {o : Option (Underway (sessions e))}

def alive (s : Concert (sessions e)) : Nat := s.kept.countP SessionResult.isSession

/-- The thread is in the middle of a call that has the claim. -/
def IsInside (s : Concert (sessions e)) (t : Thread) : Prop :=
  ∃ u, s.current t = some u ∧ u.isInside = true

/-- One has the claim: the session that is alive, a thread that is inside, or nobody. -/
structure Claimed (s : Concert (sessions e)) (h : Holder) : Prop where
  claimed : s.world.claimed = true ↔ h ≠ .nobody
  alive : s.alive = if h = .session then 1 else 0
  inside : ∀ t, s.IsInside t ↔ h = .thread t

/-- Every call does what it may do with the claim or without it. -/
structure Minds (s : Concert (sessions e)) : Prop where
  along : ∀ t u, s.current t = some u → u.rest.Along (.claim u.task.request.isOnSession)
    (fun has x => has = x.isSession) u.isInside
  onSession : ∀ t u, s.current t = some u → u.isInside = true →
    u.task.request.isOnSession = true

/-! ## one call changes -/

theorem isInside_iff (hs : s'.current = update s.current t o) :
    s'.IsInside t' ↔ t' = t ∧ (∃ u, o = some u ∧ u.isInside = true) ∨ t' ≠ t ∧ s.IsInside t' := by
  unfold IsInside
  rw [hs]
  by_cases ht : t' = t
  · rw [ht, Function.update_self]
    simp
  · rw [Function.update_of_ne ht]
    simp [ht]

/-- The call of one thread has changed, and who has the claim may have changed with it. -/
theorem Claimed.change (hc : s.Claimed h) {h' : Holder} (hs : s'.current = update s.current t o)
    (hclaimed : s'.world.claimed = true ↔ h' ≠ .nobody)
    (halive : s'.alive = if h' = .session then 1 else 0)
    (hin : (∃ u, o = some u ∧ u.isInside = true) ↔ h' = .thread t)
    (hothers : ∀ t', t' ≠ t → (h = .thread t' ↔ h' = .thread t')) : s'.Claimed h' := by
  refine ⟨hclaimed, halive, fun t' => ?_⟩
  rw [isInside_iff hs, hin]
  by_cases ht : t' = t
  · rw [ht]
    simp
  · simp only [ht, false_and, false_or, not_false_eq_true, true_and, ne_eq]
    rw [hc.inside t', hothers t' ht]

/-- What one call changes about itself alone leaves the claim where it is. -/
theorem Claimed.same (hc : s.Claimed h) (hs : s'.current = update s.current t o)
    (hclaimed : s'.world.claimed = s.world.claimed) (halive : s'.alive = s.alive)
    (hin : (∃ u, o = some u ∧ u.isInside = true) ↔ s.IsInside t) : s'.Claimed h :=
  hc.change hs (by rw [hclaimed]; exact hc.claimed) (halive.trans hc.alive)
    (hin.trans (hc.inside t)) fun _ _ => Iff.rfl

theorem countP_erase {x : SessionResult} {kept : List SessionResult} (hx : x ∈ kept) :
    kept.countP SessionResult.isSession =
      (kept.erase x).countP SessionResult.isSession + if x.isSession = true then 1 else 0 := by
  rw [(List.perm_cons_erase hx).countP_eq, List.countP_cons]

theorem not_isInside (ht : s.current t = none) : ¬ s.IsInside t :=
  fun ⟨_, hu, _⟩ => nomatch hu.symm.trans ht

theorem isInside_current {u : Underway (sessions e)} (hu : s.current t = some u) :
    s.IsInside t ↔ u.isInside = true := by
  refine ⟨fun ⟨u', hu', hin⟩ => ?_, fun hin => ⟨u, hu, hin⟩⟩
  rw [Option.some.inj (hu.symm.trans hu')]
  exact hin

theorem alive_start_table {q : TableRequest} (hcan : s.canStart t (.table q) = true) :
    (s.start t (.table q)).alive = s.alive := by
  have hk := (canStart_iff.mp hcan).2
  unfold Concert.alive Concert.start
  cases hq : q.uses with
  | none => simp only [SessionRequest.uses, hq, Option.map_none]
  | some x =>
    have hx : SessionResult.table x ∈ s.kept :=
      hk _ (congrArg (Option.map SessionResult.table) hq)
    simp only [SessionRequest.uses, hq, Option.map_some]
    exact (countP_erase hx).symm

theorem alive_start_finishSession {x : Session} (hcan : s.canStart t (.finishSession x) = true) :
    s.alive = (s.start t (.finishSession x)).alive + 1 :=
  have hx : SessionResult.session x ∈ s.kept := (canStart_iff.mp hcan).2 _ rfl
  countP_erase hx

theorem Claimed.start (hc : s.Claimed h) {q : SessionRequest} (hcan : s.canStart t q = true) :
    ∃ h', (s.start t q).Claimed h' := by
  have hout := not_isInside (canStart_iff.mp hcan).1
  have hnew : (∃ u, some (⟨⟨s.tasks.length, t, q⟩, [], q.program e⟩ : Underway (sessions e)) =
      some u ∧ u.isInside = true) ↔ q.endsSession = true := by
    refine ⟨fun ⟨u, hu, hin⟩ => ?_, fun hin => ⟨_, rfl, hin⟩⟩
    rw [← Option.some.inj hu] at hin
    exact hin
  have hsame : q.endsSession = false → (s.start t q).alive = s.alive → (s.start t q).Claimed h :=
    fun hq halive => hc.same rfl rfl halive
      ⟨fun hin => absurd ((hnew.mp hin).symm.trans hq) (by decide), fun hin => absurd hin hout⟩
  cases q with
  | table q => exact ⟨h, hsame rfl (alive_start_table hcan)⟩
  | beginSession => exact ⟨h, hsame rfl rfl⟩
  | finishSession x =>
    -- the session that is used up hands its claim over to the thread that ends it
    have hcount := alive_start_finishSession hcan
    have hsession : h = .session := by
      by_contra hne
      have halive := hc.alive
      rw [if_neg hne] at halive
      omega
    subst hsession
    have halive := hc.alive
    rw [if_pos rfl] at halive
    refine ⟨.thread t, hc.change rfl ?_ ?_ (hnew.trans ?_) fun t' ht' => ?_⟩
    · exact hc.claimed.trans (by simp)
    · rw [if_neg (by simp)]
      omega
    · simp [SessionRequest.endsSession]
    · simpa using ht'.symm

theorem Claimed.finish (hc : s.Claimed h) (hm : s.Minds) {c : Task (sessions e)} {acts : List Act}
    {x : Except Abandoned SessionResult} (hu : s.current t = some ⟨c, acts, ofResult x⟩) :
    ∃ h', (s.finish t c acts x).Claimed h' := by
  have hmind := hm.along t _ hu
  have hin := isInside_current hu
  have hnone : (∃ u, (none : Option (Underway (sessions e))) = some u ∧ u.isInside = true) ↔
      False := by simp
  have hsame : Underway.isInside ⟨c, acts, ofResult x⟩ = false →
      (s.finish t c acts x).alive = s.alive → (s.finish t c acts x).Claimed h := by
    intro hout halive
    refine hc.same rfl rfl halive (hnone.trans ?_)
    rw [hin, hout]
    simp
  cases x with
  | error a => exact ⟨h, hsame hmind rfl⟩
  | ok x =>
    have hcount : (s.finish t c acts (.ok x)).alive = s.alive + if x.isSession then 1 else 0 := by
      show (s.kept ++ [x]).countP _ = _
      rw [List.countP_append, List.countP_singleton]
      rfl
    replace hmind : Underway.isInside ⟨c, acts, ofResult (.ok x)⟩ = x.isSession := hmind
    cases hx : x.isSession with
    | false =>
      rw [hx] at hcount hmind
      exact ⟨h, hsame hmind hcount⟩
    | true =>
      -- the session that is returned has the claim of the call that has begun it
      rw [hx] at hcount hmind
      obtain rfl := (hc.inside t).mp (hin.mpr hmind)
      have halive := hc.alive
      rw [if_neg (by simp)] at halive
      refine ⟨.session, hc.change rfl ?_ ?_ (hnone.trans (by simp)) fun t' ht' => ?_⟩
      · exact hc.claimed.trans (by simp)
      · rw [hcount, halive]
        rfl
      · simpa using ht'.symm

theorem isInside_concat (u : Underway (sessions e)) (act : Act) (rest : Program SessionResult) :
    Underway.isInside ⟨u.task, u.acts ++ [act], rest⟩ = Act.hasClaim u.isInside act :=
  List.foldl_append ..

/-- The thread of a call that has made an access is inside if the access has left the claim to it. -/
theorem isInside_next {c : Task (sessions e)} {acts : List Act} {a : Access}
    {next : a.Reply → Program SessionResult} (hu : s.current t = some ⟨c, acts, .step a next⟩)
    {r : a.Reply} {had : Bool} (hhad : s.IsInside t ↔ had = true) :
    (∃ u, some (⟨c, acts ++ [⟨a, r⟩], next r⟩ : Underway (sessions e)) = some u ∧
      u.isInside = true) ↔ Act.hasClaim had ⟨a, r⟩ = true := by
  have heq : Underway.isInside ⟨c, acts, .step a next⟩ = had := by
    rw [isInside_current hu] at hhad
    exact Bool.eq_iff_iff.mpr hhad
  rw [← heq, ← isInside_concat ⟨c, acts, .step a next⟩ ⟨a, r⟩ (next r)]
  simp

/-- A call asks for the claim, and gets it if nobody has it. -/
theorem Claimed.perform_claim (hc : s.Claimed h) {c : Task (sessions e)} {acts : List Act}
    {next : Bool → Program SessionResult} (hu : s.current t = some ⟨c, acts, .step .claim next⟩)
    (hout : ¬ s.IsInside t) : ∃ h', (s.perform t c acts .claim next).Claimed h' := by
  have hhad : s.IsInside t ↔ false = true := by simp [hout]
  have hnew := isInside_next hu (r := !s.world.claimed) hhad
  cases hw : s.world.claimed with
  | true =>
    refine ⟨h, hc.same rfl hw.symm rfl (hnew.trans ?_)⟩
    show (!s.world.claimed) = true ↔ _
    rw [hw]
    simp [hout]
  | false =>
    have hnobody : h = .nobody := by
      by_contra hne
      exact Bool.false_ne_true (hw.symm.trans (hc.claimed.mpr hne))
    subst hnobody
    have halive := hc.alive
    rw [if_neg (by simp)] at halive
    refine ⟨.thread t, hc.change rfl ?_ halive (hnew.trans ?_) fun t' ht' => ?_⟩
    · show true = true ↔ _
      simp
    · show (!s.world.claimed) = true ↔ _
      simp [hw]
    · simpa using ht'.symm

theorem Claimed.perform_unclaim (hc : s.Claimed h) {c : Task (sessions e)} {acts : List Act}
    {next : Unit → Program SessionResult} (hu : s.current t = some ⟨c, acts, .step .unclaim next⟩)
    (hin : s.IsInside t) : (s.perform t c acts .unclaim next).Claimed .nobody := by
  have hhad : s.IsInside t ↔ true = true := by simp [hin]
  have hnew := isInside_next hu (r := ()) hhad
  obtain rfl := (hc.inside t).mp hin
  have halive := hc.alive
  rw [if_neg (by simp)] at halive
  refine hc.change rfl ?_ halive (hnew.trans ?_) fun t' ht' => ?_
  · show false = true ↔ _
    simp
  · show false = true ↔ _
    simp
  · simpa using ht'.symm

theorem Claimed.perform (hc : s.Claimed h) (hm : s.Minds) {c : Task (sessions e)} {acts : List Act}
    {a : Access} {next : a.Reply → Program SessionResult}
    (hu : s.current t = some ⟨c, acts, .step a next⟩) :
    ∃ h', (s.perform t c acts a next).Claimed h' := by
  have hallows := (hm.along t _ hu).1
  have hin := isInside_current hu
  by_cases hclaim : a = .claim
  · subst hclaim
    refine hc.perform_claim hu ?_
    rw [hin, Watch.eq_false_of_claim hallows]
    exact Bool.false_ne_true
  · by_cases hunclaim : a = .unclaim
    · subst hunclaim
      exact ⟨_, hc.perform_unclaim hu (hin.mpr (Watch.eq_true_of_unclaim hallows))⟩
    · refine ⟨h, hc.same rfl (Access.claimed_perform hclaim hunclaim t s.world) rfl ?_⟩
      refine (isInside_next hu hin).trans ?_
      rw [Act.hasClaim_of_ne hclaim hunclaim, hin]

/-! ## runs -/

theorem Minds.step (hm : s.Minds) (m : Move (sessions e)) : (s.step m).Minds := by
  refine step_preserves hm ?start ?finish ?perform ?outside
  case start =>
    refine fun t q _ => ⟨fun t' u hu => ?_, fun t' u hu hin => ?_⟩
    · rcases current_cases hu with ⟨-, heq⟩ | ⟨-, hu⟩
      · rw [← Option.some.inj heq]
        exact SessionRequest.along e q
      · exact hm.along t' u hu
    · rcases current_cases hu with ⟨-, heq⟩ | ⟨-, hu⟩
      · rw [← Option.some.inj heq] at hin ⊢
        exact SessionRequest.isOnSession_of_endsSession hin
      · exact hm.onSession t' u hu hin
  case finish =>
    refine fun t c acts x hu => ⟨fun t' u hu' => ?_, fun t' u hu' hin => ?_⟩
    · rcases current_cases hu' with ⟨-, heq⟩ | ⟨-, hu'⟩
      · exact nomatch heq
      · exact hm.along t' u hu'
    · rcases current_cases hu' with ⟨-, heq⟩ | ⟨-, hu'⟩
      · exact nomatch heq
      · exact hm.onSession t' u hu' hin
  case perform =>
    refine fun t c acts a next hu _ => ⟨fun t' u hu' => ?_, fun t' u hu' hin => ?_⟩
    · rcases current_cases hu' with ⟨-, heq⟩ | ⟨-, hu'⟩
      · rw [← Option.some.inj heq, isInside_concat ⟨c, acts, .step a next⟩]
        exact (hm.along t _ hu).2 t s.world _ ⟨t, rfl⟩
      · exact hm.along t' u hu'
    · rcases current_cases hu' with ⟨-, heq⟩ | ⟨-, hu'⟩
      · rw [← Option.some.inj heq, isInside_concat ⟨c, acts, .step a next⟩] at hin
        rw [← Option.some.inj heq]
        exact Act.isOnSession_of_hasClaim (hm.along t _ hu).1 (hm.onSession t _ hu) hin
      · exact hm.onSession t' u hu' hin
  case outside => exact fun _ _ => ⟨hm.along, hm.onSession⟩

/-- **One has the claim, whatever happens.** -/
theorem Claimed.step (hc : s.Claimed h) (hm : s.Minds) (m : Move (sessions e)) :
    ∃ h', (s.step m).Claimed h' := by
  refine step_preserves (P := fun s => ∃ h', s.Claimed h') ⟨h, hc⟩ ?start ?finish ?perform ?outside
  case start => exact fun _ _ hcan => hc.start hcan
  case finish => exact fun _ _ _ _ hu => hc.finish hm hu
  case perform => exact fun _ _ _ _ _ hu _ => hc.perform hm hu
  case outside =>
    refine fun o _ => ⟨h, ?_, hc.alive, hc.inside⟩
    obtain ⟨_, _, _, _, _, _, _, ho⟩ := o.apply_eq s.world
    rw [ho]
    exact hc.claimed

theorem Claimed.run (hc : s.Claimed h) (hm : s.Minds) (moves : List (Move (sessions e))) :
    (∃ h', (Concert.run moves s).Claimed h') ∧ (Concert.run moves s).Minds :=
  run_induction (P := fun s => (∃ h', s.Claimed h') ∧ s.Minds)
    (fun _ m _ ⟨⟨_, hc⟩, hm⟩ => ⟨hc.step hm m, hm.step m⟩) ⟨⟨h, hc⟩, hm⟩

theorem claimed_opened {w : World} (hw : w.claimed = false) {kept : List SessionResult}
    (hk : ∀ x ∈ kept, x.isSession = false) : (opened (sessions e) w kept).Claimed .nobody where
  claimed := by
    show w.claimed = true ↔ _
    simp [hw]
  alive := List.countP_eq_zero.mpr fun x hx => by simp [hk x hx]
  inside := fun t => by simp [IsInside, opened]

/-! ## calls on record -/

theorem Faithful.acts_eq_nil (hf : Faithful s) {c : Task (sessions e)} {acts : List Act}
    {next : Bool → Program SessionResult} (hq : c.request = .beginSession)
    (hu : s.current t = some ⟨c, acts, .step .claim next⟩) : acts = [] := by
  obtain ⟨acts', x, w, acts'', rfl, hends⟩ := Program.exists_ends t (.step .claim next)
  have hprog := hf.current t _ hu _ x ⟨w, acts'', rfl, hends⟩
  replace hprog : (SessionRequest.program e c.request).Ends t _ x := hprog
  rw [hq] at hprog
  obtain ⟨_, -, hcourse⟩ := SessionRequest.begin_ends hprog
  cases acts with
  | nil => rfl
  | cons a as =>
    refine absurd rfl (hcourse.claim_once ⟨.claim, (Access.claim.perform t w).1⟩ ?_)
    exact List.mem_append_right _ List.mem_cons_self

/-- A call that asks for the claim is refused if another has it; else it begins a session if the
host library and the seed allow. -/
theorem Faithful.begins (hf : Faithful s) (hs : Tidy s) {c : Task (sessions e)} {acts : List Act}
    {next : Bool → Program SessionResult} (hq : c.request = .beginSession)
    (hu : s.current t = some ⟨c, acts, .step .claim next⟩) (moves : List (Move (sessions e)))
    {x : Ended (sessions e)} (hx : x ∈ (Concert.run moves (s.step (.go t))).ended)
    (hc : x.task = c) :
    (x.result = .ok (.failure .alreadyInitialized) ↔ s.world.claimed = true) ∧
    (s.world.claimed = true → x.acts = [⟨.claim, false⟩]) ∧
    (s.world.claimed = false → ((∃ z, x.result = .ok (.session z)) ↔
      (e = .modern ∨ ⟨.startHost, (1 : Int32)⟩ ∈ x.acts) ∧ ⟨.readSeeded, true⟩ ∈ x.acts)) := by
  obtain rfl := hf.acts_eq_nil hq hu
  have hstep : s.step (.go t) = s.perform t c [] .claim next := step_go hu rfl
  have hs' := hs.step (.go t)
  have hgranted : [⟨.claim, !s.world.claimed⟩] <+: x.acts := by
    rw [hstep] at hs' hx
    have hrec := hs'.recorded (t := t) (Function.update_self ..)
    exact (hrec.run hs' moves).ended x hx hc
  have hends := ((hf.step hs (.go t)).run hs' moves).ended x hx
  replace hends : (SessionRequest.program e x.task.request).Ends _ x.acts x.result := hends
  rw [hc, hq] at hends
  obtain ⟨z, hres, hcourse⟩ := SessionRequest.begin_ends hends
  obtain ⟨granted, rest, hacts, hrest, htaken⟩ := hcourse.exists_claim
  have heq : granted = !s.world.claimed := by
    rw [hacts, List.cons_prefix_cons] at hgranted
    simpa using hgranted.1.symm
  have hfailure : x.result = .ok (.failure .alreadyInitialized) ↔ z = .error .alreadyInitialized := by
    rw [hres]
    cases z <;> simp [SessionResult.ofBegin]
  have hsession : (∃ y, x.result = .ok (.session y)) ↔ ∃ y, z = .ok y := by
    rw [hres]
    cases z <;> simp [SessionResult.ofBegin]
  refine ⟨?_, fun hw => ?_, fun hw => ?_⟩
  · rw [hfailure, htaken, heq]
    simp
  · have hfalse : granted = false := by rw [heq, hw]; rfl
    rw [hacts, hrest hfalse, hfalse]
  · have hclaim : (⟨.claim, true⟩ : Act) ∈ x.acts := by
      rw [hacts, heq, hw]
      exact List.mem_cons_self
    rw [hsession, hcourse.ok_iff, and_iff_right hclaim]

theorem Claimed.iff (hc : s.Claimed h) :
    (s.world.claimed = true ↔ (s.alive = 1 ∧ ∀ t, ¬ s.IsInside t) ∨
      (s.alive = 0 ∧ ∃ t, ∀ t', s.IsInside t' ↔ t' = t)) ∧
    (s.world.claimed = false ↔ s.alive = 0 ∧ ∀ t, ¬ s.IsInside t) := by
  obtain ⟨hclaimed, halive, hinside⟩ := hc
  rw [← Bool.not_eq_true]
  simp only [hclaimed, halive, hinside]
  cases h with
  | nobody => simp
  | session => simp
  | thread t => simp [eq_comm]

/-- A call about sessions works on them with the claim only, and no other call does. -/
theorem Minds.works (hm : s.Minds) {u : Underway (sessions e)} {a : Access}
    {next : a.Reply → Program SessionResult} (hu : s.current t = some u)
    (hrest : u.rest = .step a next)
    (hon : u.task.request.isOnSession = true ∨ a.isOfSession = true) :
    a = .claim ∨ a = .log .ended ∨ s.IsInside t := by
  have hmind := hm.along t u hu
  rw [hrest] at hmind
  have hallows := hmind.1
  cases hq : SessionRequest.isOnSession u.task.request with
  | false =>
    rw [hq] at hallows hon
    exact absurd (hon.resolve_left Bool.false_ne_true) (by rw [show _ = false from hallows]; decide)
  | true =>
    rw [hq] at hallows
    replace hallows : u.isInside = a.needsClaim := hallows
    cases hin : u.isInside with
    | true => exact .inr (.inr ((isInside_current hu).mpr hin))
    | false =>
      rw [hin] at hallows
      rcases Access.eq_of_needsClaim hallows.symm with h | h
      · exact .inl h
      · exact .inr (.inl h)

/-- Whoever gives the claim back leaves no session and nobody inside. -/
theorem Claimed.unclaim (hc : s.Claimed h) (hm : s.Minds) {c : Task (sessions e)} {acts : List Act}
    {next : Unit → Program SessionResult} (hu : s.current t = some ⟨c, acts, .step .unclaim next⟩) :
    (s.step (.go t)).world.claimed = false ∧ (s.step (.go t)).alive = 0 ∧
      ∀ t', ¬ (s.step (.go t)).IsInside t' := by
  obtain ⟨h', hc'⟩ := hc.step hm (.go t)
  have hfree : (s.step (.go t)).world.claimed = false := by
    rw [step_go hu rfl]
    rfl
  exact ⟨hfree, hc'.iff.2.mp hfree⟩

/-- With no call about sessions under way, the claim is taken only by a session that is alive. -/
theorem Claimed.iff_alive (hc : s.Claimed h) (hm : s.Minds)
    (hnone : ∀ t u, s.current t = some u → u.task.request.isOnSession = false) :
    s.world.claimed = true ↔ s.alive = 1 := by
  have hout : ∀ t, ¬ s.IsInside t := fun t ⟨u, hu, hin⟩ =>
    Bool.false_ne_true ((hnone t u hu).symm.trans (hm.onSession t u hu hin))
  rw [hc.iff.1]
  refine ⟨fun hhas => ?_, fun halive => .inl ⟨halive, hout⟩⟩
  rcases hhas with ⟨halive, -⟩ | ⟨-, t, ht⟩
  · exact halive
  · exact absurd ((ht t).mpr rfl) (hout t)

/-- A call that has begun a session, or has not, has taken one of the courses that there are. -/
theorem Faithful.course (hf : Faithful s) {x : Ended (sessions e)} (hx : x ∈ s.ended)
    (hq : x.task.request = .beginSession) : ∃ z, x.result = .ok (.ofBegin z) ∧
      Session.Course e x.task.thread x.acts z := by
  have hends := hf.ended x hx
  replace hends : (SessionRequest.program e x.task.request).Ends _ x.acts x.result := hends
  rw [hq] at hends
  exact SessionRequest.begin_ends hends

theorem Faithful.endCourse (hf : Faithful s) {x : Ended (sessions e)} (hx : x ∈ s.ended)
    {z : Session} (hq : x.task.request = .finishSession z) :
    x.result = .ok (.table .nothing) ∧ Session.EndCourse e x.task.thread z x.acts := by
  have hends := hf.ended x hx
  replace hends : (SessionRequest.program e x.task.request).Ends _ x.acts x.result := hends
  rw [hq] at hends
  exact SessionRequest.finish_ends hends

/-- **Sessions come and go one at a time, and none is lost.**  At every moment of any run the claim
is taken if and only if one session is alive and no thread is inside, or none is and one thread
is.  Sessions are worked on only inside.  A call that asks for the claim while it is taken is
refused and has done nothing; any other begins a session if the host library starts and there is a
seed.  Whoever gives the claim back leaves no session and nobody inside, and with no call about
sessions under way the claim is taken only by a session that is alive.  No such call gives up: one
that has the claim starts the host library, calls install and looks for a seed, and if the start or
the seed fails it has undone what it did; one that ends a session cleans up, gives up the handle and
gives the claim back. -/
theorem one_session_at_a_time {w : World} (hw : w.claimed = false) {kept : List SessionResult}
    (hk : ∀ x ∈ kept, x.isSession = false) {moves : List (Move (sessions w.edition))}
    {s : Concert (sessions w.edition)} (hs : run moves (opened (sessions w.edition) w kept) = s) :
    ((s.world.claimed = true ↔ (s.alive = 1 ∧ ∀ t, ¬ s.IsInside t) ∨
        (s.alive = 0 ∧ ∃ t, ∀ t', s.IsInside t' ↔ t' = t)) ∧
      (s.world.claimed = false ↔ s.alive = 0 ∧ ∀ t, ¬ s.IsInside t)) ∧
    (∀ t u a next, s.current t = some u → u.rest = .step a next →
      u.task.request.isOnSession = true ∨ a.isOfSession = true →
        a = .claim ∨ a = .log .ended ∨ s.IsInside t) ∧
    (∀ t u next, s.current t = some u → u.task.request = .beginSession →
      u.rest = .step .claim next →
        (s.world.claimed = true → (s.step (.go t)).world = s.world) ∧
        ∀ moves', ∀ x ∈ (run moves' (s.step (.go t))).ended, x.task = u.task →
          (x.result = .ok (.failure .alreadyInitialized) ↔ s.world.claimed = true) ∧
          (s.world.claimed = true → x.acts = [⟨.claim, false⟩]) ∧
          (s.world.claimed = false → ((∃ z, x.result = .ok (.session z)) ↔
            (w.edition = .modern ∨ ⟨.startHost, (1 : Int32)⟩ ∈ x.acts) ∧
              ⟨.readSeeded, true⟩ ∈ x.acts))) ∧
    (∀ t u next, s.current t = some u → u.rest = .step .unclaim next →
      (s.step (.go t)).world.claimed = false ∧ (s.step (.go t)).alive = 0 ∧
        ∀ t', ¬ (s.step (.go t)).IsInside t') ∧
    ((∀ t u, s.current t = some u → u.task.request.isOnSession = false) →
      (s.world.claimed = true ↔ s.alive = 1)) ∧
    (∀ x ∈ s.ended, x.task.request = .beginSession → ∃ z, x.result = .ok (.ofBegin z) ∧
      Session.Course w.edition x.task.thread x.acts z) ∧
    (∀ x ∈ s.ended, ∀ z, x.task.request = .finishSession z → x.result = .ok (.table .nothing) ∧
      Session.EndCourse w.edition x.task.thread z x.acts) := by
  have hopened : Tidy (opened (sessions w.edition) w kept) := tidy_opened w _
  have hminds : Minds (opened (sessions w.edition) w kept) :=
    ⟨(fun _ _ hu => nomatch hu), (fun _ _ hu => nomatch hu)⟩
  have htidy : Tidy s := hs ▸ hopened.run moves
  have hfaithful : Faithful s := hs ▸ (faithful_opened w _).run hopened moves
  obtain ⟨⟨h, hc⟩, hm⟩ : (∃ h, s.Claimed h) ∧ s.Minds :=
    hs ▸ (claimed_opened hw hk).run hminds moves
  refine ⟨hc.iff, fun t u a next hu hrest hon => hm.works hu hrest hon, ?_, ?_,
    fun hnone => hc.iff_alive hm hnone, fun x hx hq => hfaithful.course hx hq,
    fun x hx z hq => hfaithful.endCourse hx hq⟩
  · rintro t ⟨c, acts, rest⟩ next hu hq rfl
    refine ⟨fun hclaimed => ?_, fun moves' x hx heq =>
      hfaithful.begins htidy hq hu moves' hx heq⟩
    rw [step_go hu rfl]
    show { s.world with claimed := true } = s.world
    rw [← hclaimed]
  · rintro t ⟨c, acts, rest⟩ next hu rfl
    exact hc.unclaim hm hu

/-- Two threads begin a session; the one that comes second asks for the claim first. -/
def rivals : List (Move (sessions .legacy)) :=
  [.start (.worker 0) .beginSession, .start (.worker 1) .beginSession, .go (.worker 1),
    .go (.worker 1), .go (.worker 0), .go (.worker 0)]

/-- It has the claim and goes on to the end of its call. -/
def victory : List (Move (sessions .legacy)) :=
  rivals ++ List.replicate 16 (.go (.worker 1))

theorem one_session_at_a_time_rivals : ∃ s s' : Concert (sessions .legacy),
    run rivals (opened (sessions .legacy) (.initial .legacy (fun _ => 2) 3) []) = s ∧
    (s.world.claimed = true ∧ s.alive = 0 ∧ ∀ t, s.IsInside t ↔ t = .worker 1) ∧
    run victory (opened (sessions .legacy) (.initial .legacy (fun _ => 2) 3) []) = s' ∧
    (s'.world.claimed = true ∧ s'.alive = 1 ∧ ∀ t, ¬ s'.IsInside t) ∧
    s'.ended.map Ended.result =
      [.ok (.failure .alreadyInitialized), .ok (.session ⟨⟨.host, some 1⟩⟩)] ∧
    s'.ended.map (fun x => x.acts.map Act.access) = [[.claim],
      [.claim, .startHost, .loadErrorStrings, .takeLifecycle, .loadTable, .readLocking .host,
        .countLocks .host, .publishTable 3, .setId .host (some .own), .setLocking .host (some .own),
        .countInstall, .log (.tableInstalled 3), .readGeneration, .freeLifecycle, .readSeeded,
        .log .seeded, .log .begun]] ∧
    ∀ x ∈ s'.ended, x.result = .ok (.session ⟨⟨.host, some 1⟩⟩) →
      Session.Course .legacy x.task.thread x.acts (.ok ⟨⟨.host, some 1⟩⟩) := by
  have hnone : ∀ x ∈ ([] : List SessionResult), x.isSession = false :=
    fun x hx => absurd hx List.not_mem_nil
  obtain ⟨s, hs⟩ : ∃ s, run rivals (opened (sessions .legacy)
      (.initial .legacy (fun _ => 2) 3) []) = s := ⟨_, rfl⟩
  obtain ⟨s', hs'⟩ : ∃ s', run victory (opened (sessions .legacy)
      (.initial .legacy (fun _ => 2) 3) []) = s' := ⟨_, rfl⟩
  have h := one_session_at_a_time (w := .initial .legacy (fun _ => 2) 3) rfl hnone hs
  have h' := one_session_at_a_time (w := .initial .legacy (fun _ => 2) 3) rfl hnone hs'
  have hin : s.IsInside (.worker 1) := by
    rw [← hs]
    exact ⟨_, rfl, by cbv⟩
  have hclaimed : s.world.claimed = true := by
    rw [← hs]
    cbv
  have hclaimed' : s'.world.claimed = true := by
    rw [← hs']
    cbv
  have halive' : s'.alive = 1 := by
    rw [← hs']
    cbv
  have hrequests : s'.ended.map (fun x => x.task.request) = [.beginSession, .beginSession] := by
    rw [← hs']
    cbv
  refine ⟨s, s', hs, ⟨hclaimed, ?_⟩, hs', ⟨hclaimed', halive', ?_⟩, ?_, ?_, fun x hx hres => ?_⟩
  · rcases h.1.1.mp hclaimed with ⟨-, hout⟩ | ⟨halive, t, ht⟩
    · exact absurd hin (hout _)
    · rw [(ht _).mp hin]
      exact ⟨halive, ht⟩
  · rcases h'.1.1.mp hclaimed' with ⟨-, hout⟩ | ⟨hzero, -⟩
    · exact hout
    · exact absurd (halive'.symm.trans hzero) Nat.one_ne_zero
  · rw [← hs']
    cbv
  · rw [← hs']
    cbv
  · have hq : x.task.request = .beginSession := by
      have hmem := List.mem_map_of_mem (f := fun x => x.task.request) hx
      rw [hrequests] at hmem
      simpa using hmem
    obtain ⟨z, hz, hcourse⟩ := h'.2.2.2.2.2.1 x hx hq
    rw [hres] at hz
    cases z with
    | ok y =>
      obtain rfl := SessionResult.session.inj (Except.ok.inj hz)
      exact hcourse
    | error f =>
      have hfailure : SessionResult.session ⟨⟨.host, some 1⟩⟩ = .failure f := Except.ok.inj hz
      cases hfailure

end Concert

end CallbackLocks
