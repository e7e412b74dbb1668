import CallbackLocks.Proofs.Concert.Courses

/-!
# The claim on the one session

A call that begins a session has the claim from where it was granted until it gives it back or
returns the session; a call that ends a session has it from the start.

* `Act.hasClaim`     who has the claim, told from what has been done
* `Watch.claim`      sessions are worked on only with the claim
* `Session.begin_along`, `Session.finish_along`   a session is begun, and ends, with the claim
* `SessionRequest.along`   **a call has the claim when it ends a session or has begun one**
-/

namespace CallbackLocks

/-! ## what is watched -/

/-- Whether a call has the claim after an access, if it had it before or not. -/
def Act.hasClaim (had : Bool) : Act → Bool
  | ⟨.claim, granted⟩ => granted
  | ⟨.unclaim, _⟩ => false
  | _ => had

/-- The access is one that a call about sessions makes while it has the claim. -/
def Access.needsClaim : Access → Bool
  | claim | log .ended => false
  | _ => true

/-- A call about sessions does all its work while it has the claim; other calls leave sessions
alone.  No call gives up while it has the claim. -/
def Watch.claim (onSession : Bool) : Watch Bool where
  allows := fun has a => match onSession with
    | true => has = a.needsClaim
    | false => a.isOfSession = false
  leads := fun has a w has' => ∃ who, has' = Act.hasClaim has ⟨a, (a.perform who w).1⟩
  quits := fun has => has = false

theorem Access.eq_of_needsClaim {a : Access} (h : a.needsClaim = false) :
    a = .claim ∨ a = .log .ended := by
  cases a with
  | claim => exact .inl rfl
  | log l =>
    cases l with
    | ended => exact .inr rfl
    | _ => exact nomatch h
  | _ => exact nomatch h

theorem Access.claimed_perform {a : Access} (hclaim : a ≠ .claim) (hunclaim : a ≠ .unclaim)
    (who : Thread) (w : World) : (a.perform who w).2.claimed = w.claimed := by
  cases a with
  | claim => exact absurd rfl hclaim
  | unclaim => exact absurd rfl hunclaim
  | setLocking r f =>
    obtain ⟨s, hs⟩ := w.register_eq r f
    show (w.register r f).claimed = _
    rw [hs]
  | setId r f =>
    obtain ⟨s, hs, -⟩ := w.registerId_eq r f
    show (w.registerId r f).claimed = _
    rw [hs]
  | _ => rfl

theorem Watch.eq_false_of_claim {onSession has : Bool}
    (h : (Watch.claim onSession).allows has .claim) : has = false := by
  cases onSession with
  | true => exact h
  | false => exact nomatch h

theorem Watch.eq_true_of_unclaim {onSession has : Bool}
    (h : (Watch.claim onSession).allows has .unclaim) : has = true := by
  cases onSession with
  | true => exact h
  | false => exact nomatch h

theorem SessionRequest.isOnSession_of_endsSession {q : SessionRequest}
    (h : q.endsSession = true) : q.isOnSession = true := by
  cases q with
  | table q => exact nomatch h
  | beginSession | finishSession x => rfl

theorem Act.hasClaim_of_ne {a : Access} (hclaim : a ≠ .claim) (hunclaim : a ≠ .unclaim) (had : Bool)
    (r : a.Reply) : Act.hasClaim had ⟨a, r⟩ = had := by
  cases a with
  | claim => exact absurd rfl hclaim
  | unclaim => exact absurd rfl hunclaim
  | _ => rfl

theorem Act.isOnSession_of_hasClaim {onSession had : Bool} {a : Access} {r : a.Reply}
    (h : (Watch.claim onSession).allows had a) (hon : had = true → onSession = true)
    (hin : Act.hasClaim had ⟨a, r⟩ = true) : onSession = true := by
  cases onSession with
  | true => rfl
  | false =>
    have hclaim : a ≠ .claim := fun heq => nomatch (heq ▸ h)
    have hunclaim : a ≠ .unclaim := fun heq => nomatch (heq ▸ h)
    rw [Act.hasClaim_of_ne hclaim hunclaim] at hin
    exact hon hin

theorem Watch.ignores_claim {onSession has : Bool} (h : onSession = true → has = true) (a : Access)
    (ha : a.isOfSession = false) : (claim onSession).Ignores has a := by
  have hclaim : a ≠ .claim := fun heq => nomatch (heq ▸ ha)
  have hunclaim : a ≠ .unclaim := fun heq => nomatch (heq ▸ ha)
  refine ⟨?_, fun w has' ⟨who, hl⟩ => hl.trans (Act.hasClaim_of_ne hclaim hunclaim _ _)⟩
  cases onSession with
  | false => exact ha
  | true =>
    show has = a.needsClaim
    rw [h rfl]
    cases a with
    | claim => exact nomatch ha
    | log l =>
      cases l with
      | ended => exact nomatch ha
      | _ => rfl
    | _ => rfl

theorem Watch.ignores_host (a : Access) (ha : a.isOfHost = true) :
    (claim true).Ignores true a := by
  have hclaim : a ≠ .claim := fun heq => nomatch (heq ▸ ha)
  have hunclaim : a ≠ .unclaim := fun heq => nomatch (heq ▸ ha)
  have hended : a ≠ .log .ended := fun heq => nomatch (heq ▸ ha)
  refine ⟨?_, fun w has' ⟨who, hl⟩ => hl.trans (Act.hasClaim_of_ne hclaim hunclaim _ _)⟩
  show true = a.needsClaim
  by_contra hne
  rcases Access.eq_of_needsClaim (Bool.eq_false_iff.mpr (Ne.symm hne)) with h | h
  · exact hclaim h
  · exact hended h

/-! ## calls about sessions -/

namespace Session

open Program

theorem begin_along (e : Edition) : (begin e).Along (.claim true)
    (fun has x => match x with
      | .ok _ => has = true
      | .error _ => has = false) false := by
  refine ⟨rfl, fun who w has ⟨who', hhas⟩ => ?_⟩
  replace hhas : has = !w.claimed := hhas
  show (ite (w.claimed.not = true) _ _ : Program _).Along _ _ _
  rw [← hhas]
  cases has with
  | false => exact rfl
  | true =>
    have hm : ∀ a, a.isOfSession = false → (Watch.claim true).Ignores true a :=
      Watch.ignores_claim fun _ => rfl
    have hup := bringUp_along Watch.ignores_host
      (Lifecycle.install_along (Watch.ignores_install hm) (.inl rfl))
      (fun _ => Handle.drop_along (Watch.ignores_removal hm) _) e
    refine hup.bind fun has up hhas => ?_
    rw [hhas]
    cases up with
    | ok handle => exact Along.skip ⟨rfl, fun _ _ ⟨_, h⟩ => h⟩ fun _ _ => rfl
    | error f => exact ⟨rfl, fun _ _ _ ⟨_, h⟩ => h⟩

theorem finish_along (e : Edition) (x : Session) :
    (x.finish e).Along (.claim true) (fun has _ => has = false) true := by
  have hm : ∀ a, a.isOfSession = false → (Watch.claim true).Ignores true a :=
    Watch.ignores_claim fun _ => rfl
  refine (cleanUp_along Watch.ignores_host e).bind fun has _ hhas => ?_
  rw [hhas]
  refine (x.handle.release_along (Watch.ignores_removal hm)).bind fun has handle ⟨hhas, hgone⟩ => ?_
  rw [hhas]
  refine ⟨rfl, fun _ _ has ⟨_, hhas⟩ => ?_⟩
  replace hhas : has = false := hhas
  rw [hhas]
  obtain ⟨r, g⟩ := handle
  obtain rfl : g = none := hgone
  exact Along.skip ⟨rfl, fun _ _ ⟨_, h⟩ => h⟩ fun _ _ => rfl

end Session

/-- **A call has the claim when it ends a session or has begun one, and not otherwise.** -/
theorem SessionRequest.along (e : Edition) (q : SessionRequest) : (q.program e).Along
    (.claim q.isOnSession) (fun has x => has = x.isSession) q.endsSession := by
  cases q with
  | table q =>
    have hm : ∀ a, a.isOfSession = false → (Watch.claim false).Ignores false a :=
      Watch.ignores_claim fun h => h
    exact (q.along hm rfl).bind fun _ _ hhas => hhas
  | beginSession =>
    refine (Session.begin_along e).bind fun has begun hhas => ?_
    cases begun with
    | ok x => exact hhas
    | error f => exact hhas
  | finishSession x => exact (Session.finish_along e x).bind fun _ _ hhas => hhas

end CallbackLocks
