import CallbackLocks.Proofs.Runs.Invariant
import CallbackLocks.Proofs.Runs.Loading

/-!
# What a removal has under the lifecycle lock

A handle that goes away removes a table only while its thread has the lifecycle lock, and only if
the number is right.  As long as the thread has the lock all tables have been counted, so the number
is that of the table that the call of the handle made.

* `Tenure`, `Watch.tenure`   how far a thread has come with the lifecycle lock
* `Operation.tenure_along`   **every operation but a removal by name goes by these steps**
* `Tenure.Fits`      what a thread knows that has come so far
* `Tenure.Fits.others`, `Tenure.Fits.own`   it still does after an access of another thread, and
                     knows as much as it should after one of its own
* `Ledger.Sound.eq_of_records`   if the number is right, the table is the one of the handle
-/

namespace CallbackLocks

open Program

/-! ## one call -/

/-- How far a thread has come with the lifecycle lock. -/
inductive Tenure where
  /-- it does not have the lock -/
  | out
  | inside
  /-- it has compared numbers, and may remove the table -/
  | aimed
  /-- it has cleared the locking slot -/
  | cleared
deriving DecidableEq

namespace Tenure

theorem inside_ne_out : inside ≠ out := by decide
theorem inside_ne_cleared : inside ≠ cleared := by decide
theorem aimed_ne_out : aimed ≠ out := by decide

end Tenure

namespace Operation

/-- a call of it may make a table -/
def makes : Operation → Bool
  | install _ | newHandle _ | beginSession => true
  | _ => false

/-- a call of it may give up a handle -/
def givesUp : Operation → Bool
  | drop _ | uninstall _ | beginSession | finishSession _ => true
  | _ => false

/-- The number of the newest table is no reason to leave that table alone. -/
def aims (generation : Nat) : Operation → Bool
  | drop h | uninstall h => h.generation == some generation
  | _ => true

end Operation

/-- Under the lifecycle lock a call looks for the table, which only a call that asks a handle does
without the lock too; after a look at the number it clears the locking slot of its registry, and then
removes the table. -/
def Watch.tenure (op : Operation) : Watch Tenure where
  allows := fun b a => match a with
    | .takeLifecycle => b = .out
    | .loadTable => op.isOnSession = true → b ≠ .out
    | .readGeneration => b ≠ .out
    | .publishTable _ | .countInstall => op.makes = true
    | .setLocking _ (some _) => b ≠ .cleared
    | .setLocking r none => b = .aimed ∧ op.givesUp = true ∧ op.registry = r
    | .withdrawTable => b = .cleared ∧ op.givesUp = true
    | _ => True
  leads := fun b a w b' => match a with
    | .takeLifecycle => b' = .inside
    | .freeLifecycle => b' = .out
    | .readGeneration => b' = if op.aims w.generation then .aimed else .inside
    | .setLocking _ none => b' = .cleared
    | _ => b' = b
  quits := fun b => b = .out

def Access.isOfTenure : Access → Bool
  | takeLifecycle | freeLifecycle | loadTable | publishTable _ | countInstall | readGeneration
  | setLocking _ _ | withdrawTable => true
  | _ => false

section
variable {op : Operation} {b : Tenure} {r : Registry}

theorem Watch.ignores_tenure {a : Access} (h : a.isOfTenure = false) : (tenure op).Ignores b a := by
  cases a with
  | takeLifecycle | freeLifecycle | loadTable | publishTable | countInstall | readGeneration
  | setLocking | withdrawTable => exact nomatch h
  | _ => exact ⟨trivial, fun _ _ hb => hb⟩

theorem Watch.ignores_tenure_host (a : Access) (h : a.isOfHost = true) :
    (tenure op).Ignores b a := by
  apply ignores_tenure
  cases a with
  | takeLifecycle | freeLifecycle | loadTable | publishTable | countInstall | readGeneration
  | setLocking | withdrawTable => exact nomatch h
  | _ => rfl

namespace Lifecycle

theorem free_tenure {α : Type} (x : α) : (step .freeLifecycle fun _ => done x).Along (.tenure op)
    (fun b _ => b = .out) b :=
  ⟨trivial, fun _ _ _ hb => hb⟩

theorem install_tenure (hmakes : op.makes = true) (r : Registry) :
    (install r).Along (.tenure op) (fun b _ => b = .out) .out := by
  simp only [install, log, access_eq, bind_eq, bind_step, bind_done, pure_eq]
  refine ⟨rfl, fun _ _ b hb => ?_⟩
  obtain rfl : b = .inside := hb
  refine ⟨fun _ => Tenure.inside_ne_out, fun who w b hb => ?_⟩
  obtain rfl : b = .inside := hb
  cases (Access.loadTable.perform who w).1 with
  | some size => exact Along.skip (Watch.ignores_tenure rfl) fun _ _ => free_tenure none
  | none =>
    refine Along.skip (Watch.ignores_tenure rfl) fun who w => ?_
    cases (Access.readLocking r).perform who w |>.1 with
    | some f => exact Along.skip (Watch.ignores_tenure rfl) fun _ _ => free_tenure none
    | none =>
      refine Along.skip (Watch.ignores_tenure rfl) fun who w => ?_
      show (if w.lockCount r < maxLocks then _ else _ : Program (Option Nat)).Along _ _ _
      split
      · refine ⟨hmakes, fun _ _ b hb => ?_⟩
        obtain rfl : b = .inside := hb
        refine Along.skip (Watch.ignores_tenure rfl) fun _ _ => ?_
        refine ⟨Tenure.inside_ne_cleared, fun _ _ b hb => ?_⟩
        obtain rfl : b = .inside := hb
        refine ⟨hmakes, fun _ _ b hb => ?_⟩
        obtain rfl : b = .inside := hb
        refine Along.skip (Watch.ignores_tenure rfl) fun _ _ => ?_
        exact ⟨Tenure.inside_ne_out, fun _ w b _ => free_tenure _⟩
      · exact ⟨trivial, fun _ _ b hb => hb⟩

theorem remove_tenure (hop : op.givesUp = true) (hr : op.registry = r) :
    (remove r).Along (.tenure op) (fun _ _ => True) .aimed := by
  simp only [remove, log, access_eq, bind_eq, bind_step, bind_done]
  refine ⟨fun _ => Tenure.aimed_ne_out, fun who w b hb => ?_⟩
  obtain rfl : b = .aimed := hb
  cases (Access.loadTable.perform who w).1 with
  | none => exact Along.skip (Watch.ignores_tenure rfl) fun _ _ => trivial
  | some size =>
    refine Along.skip (Watch.ignores_tenure rfl) fun _ _ => ?_
    refine ⟨⟨rfl, hop, hr⟩, fun _ _ b hb => ?_⟩
    obtain rfl : b = .cleared := hb
    refine ⟨⟨rfl, hop⟩, fun _ _ b _ => ?_⟩
    exact Along.skip (Watch.ignores_tenure rfl) fun _ _ => trivial

theorem removeIfCurrent_tenure {g : Nat} (hop : op.givesUp = true) (hr : op.registry = r)
    (hg : op.aims g = true) :
    (removeIfCurrent r g).Along (.tenure op) (fun b _ => b = .out) .out := by
  have hcurrent : (isCurrent g).Along (.tenure op) (fun b current => current = true → b = .aimed)
      .inside := by
    refine ⟨(nomatch ·), fun who w b hb => ?_⟩
    replace hb : b = if op.aims w.generation then .aimed else .inside := hb
    show (if w.generation = g then _ else _ : Program Bool).Along _ _ _
    split
    · rename_i hw
      rw [hw, hg] at hb
      obtain rfl : b = .aimed := hb
      exact ⟨fun _ => Tenure.aimed_ne_out, fun _ _ b hb _ => hb⟩
    · exact (nomatch ·)
  refine ⟨rfl, fun _ _ b hb => ?_⟩
  obtain rfl : b = .inside := hb
  refine hcurrent.bind fun b current hb => ?_
  cases current with
  | false => exact Along.skip (Watch.ignores_tenure rfl) fun _ _ => free_tenure ()
  | true =>
    rw [hb rfl]
    exact (remove_tenure hop hr).bind fun b _ _ => free_tenure ()

end Lifecycle

namespace Handle

theorem release_tenure {h : Handle} (hop : op.givesUp = true) (hr : op.registry = h.registry)
    (hg : ∀ g, h.generation = some g → op.aims g = true) :
    h.release.Along (.tenure op) (fun b h' => b = .out ∧ h'.generation = none) .out := by
  obtain ⟨r, g⟩ := h
  cases g with
  | none => exact ⟨rfl, rfl⟩
  | some g =>
    exact (Lifecycle.removeIfCurrent_tenure hop hr (hg g rfl)).bind fun _ _ hb => ⟨hb, rfl⟩

theorem drop_tenure {h : Handle} (hop : op.givesUp = true) (hr : op.registry = h.registry)
    (hg : ∀ g, h.generation = some g → op.aims g = true) :
    h.drop.Along (.tenure op) (fun b _ => b = .out) .out :=
  (release_tenure hop hr hg).bind fun _ _ hb => hb.1

theorem inquiry_tenure (hop : op.isOnSession = false) (h : Handle) :
    h.inquiry.Along (.tenure op) (fun b p => b = .out ∧ p.handle? = none) .out := by
  cases hg : h.generation with
  | none =>
    rw [inquiry_of_none hg]
    exact ⟨rfl, rfl⟩
  | some g =>
    rw [inquiry_of_some hg]
    refine ⟨rfl, fun _ _ b hb => ?_⟩
    obtain rfl : b = .inside := hb
    refine ⟨Tenure.inside_ne_out, fun who w _ _ => ⟨trivial, fun _ _ b hb => ?_⟩⟩
    obtain rfl : b = .out := hb
    by_cases hsame : (Access.readGeneration.perform who w).1 = g
    · rw [look_of_same hsame]
      refine ⟨fun hon => absurd (hop.symm.trans hon) Bool.false_ne_true, fun _ _ b hb => ?_⟩
      exact ⟨hb, Prize.handle?_ofAnswer _⟩
    · rw [look_of_not_same hsame]
      exact ⟨rfl, rfl⟩

end Handle

namespace Session

theorem begin_tenure (e : Edition) :
    (begin e).Along (.tenure .beginSession) (fun b _ => b = .out) .out := by
  refine Along.skip (Watch.ignores_tenure rfl) fun who w => ?_
  show (if w.claimed.not = true then _ else _ : Program _).Along _ _ _
  split
  · refine (bringUp_along Watch.ignores_tenure_host (Lifecycle.install_tenure rfl .host)
      (fun _ => Handle.drop_tenure rfl rfl fun _ _ => rfl) e).bind fun b up hb => ?_
    rw [hb]
    cases up with
    | ok handle => exact Along.skip (Watch.ignores_tenure rfl) fun _ _ => rfl
    | error f => exact Along.skip (Watch.ignores_tenure rfl) fun _ _ => rfl
  · exact rfl

theorem finish_tenure (e : Edition) (x : Session) :
    (x.finish e).Along (.tenure (.finishSession x)) (fun b _ => b = .out) .out := by
  refine (cleanUp_along Watch.ignores_tenure_host e).bind fun b _ hb => ?_
  rw [hb]
  refine (Handle.release_tenure rfl rfl fun _ _ => rfl).bind fun b ⟨r, g⟩ ⟨hb, hg⟩ => ?_
  obtain rfl : g = none := hg
  rw [hb]
  refine Along.skip (Watch.ignores_tenure rfl) fun _ _ => ?_
  exact Along.skip (Watch.ignores_tenure rfl) fun _ _ => rfl

end Session

/-- A call of the operation may return a session, or a handle that is not of a session. -/
def Operation.Returns (op : Operation) (session : Bool) : Prop :=
  if session then op = .beginSession else ∃ r, op = .newHandle r

/-- A call of the operation may return that. -/
def Prize.IsOf (op : Operation) : Prize → Prop
  | handle _ => op.Returns false
  | session _ => op.Returns true
  | nothing | refusal => True

theorem Prize.isOf_of_handle? {op : Operation} {p : Prize} (h : p.handle? = none) : p.IsOf op := by
  cases p with
  | nothing | refusal => trivial
  | handle | session => exact nomatch h

/-- **Every operation but a removal by name goes by these steps**, and returns what it should. -/
theorem Operation.tenure_along (e : Edition) (hop : ∀ r, op ≠ .teardown r) :
    (op.program e).Along (.tenure op) (fun b p => b = .out ∧ p.IsOf op) .out := by
  cases op with
  | install r => exact (Lifecycle.install_tenure rfl r).bind fun _ _ hb => ⟨hb, trivial⟩
  | teardown r => exact absurd rfl (hop r)
  | newHandle r =>
    have hhandle : (Handle.install r).Along (.tenure (.newHandle r)) (fun b _ => b = .out) .out :=
      (Lifecycle.install_tenure rfl r).bind fun _ _ hb => hb
    exact hhandle.bind fun _ _ hb => ⟨hb, r, rfl⟩
  | drop h =>
    have hd : h.drop.Along (.tenure (.drop h)) (fun b _ => b = .out) .out :=
      Handle.drop_tenure rfl rfl fun g hg => beq_iff_eq.mpr hg
    exact hd.bind fun _ _ hb => ⟨hb, trivial⟩
  | uninstall h =>
    have hd : h.drop.Along (.tenure (.uninstall h)) (fun b _ => b = .out) .out :=
      Handle.drop_tenure rfl rfl fun g hg => beq_iff_eq.mpr hg
    rw [← h.uninstall_eq_drop] at hd
    exact hd.bind fun _ _ hb => ⟨hb, trivial⟩
  | ask h => exact (h.inquiry_tenure rfl).mono fun _ _ hb => ⟨hb.1, Prize.isOf_of_handle? hb.2⟩
  | beginSession =>
    refine (Session.begin_tenure e).bind fun b begun hb => ?_
    cases begun with
    | ok x => exact ⟨hb, rfl⟩
    | error f => exact ⟨hb, trivial⟩
  | finishSession x => exact (Session.finish_tenure e x).bind fun _ _ hb => ⟨hb, trivial⟩

end

/-! ## what a thread knows -/

open Ledger

theorem Watch.exists_tenure (op : Operation) (b : Tenure) (a : Access) (w : World) :
    ∃ b', (tenure op).leads b a w b' := by
  cases a with
  | setLocking r f => cases f <;> exact ⟨_, rfl⟩
  | _ => exact ⟨_, rfl⟩

/-- A registry holds what it held if another thread has the lifecycle lock. -/
theorem Ledger.Admits.locking_eq {l : Ledger} {t t' : Thread} {a : Access}
    (h : l.Admits False t' a) (hl : l.world.lifecycle = some t) (hne : t' ≠ t) (d : Deed)
    (r : Registry) : (l.perform d t' a).2.world.locking r = l.world.locking r := by
  by_cases hq : IsQuiet a = true
  · exact (alike_perform d t' l hq).locking r
  cases a with
  | setLocking r' f =>
    have hl' : l.world.lifecycle = some t' := by
      cases f with
      | none => exact h
      | some f =>
        cases f with
        | own => exact h.1
        | foreign k => exact h.elim
    exact absurd (Option.some.inj (hl'.symm.trans hl)) hne
  | takeLifecycle | freeLifecycle | publishTable | withdrawTable | countInstall => rfl
  | _ => exact absurd rfl hq

/-- If the number is right and all tables have been counted, the table is the one of the handle. -/
theorem Ledger.Sound.eq_of_records {l : Ledger} (hs : l.Sound False) {m m' : Deed} {h : Handle}
    (hr : Records l.makers m' h) (hg : h.generation = some l.world.generation)
    (hlen : l.makers.length = l.world.generation) (hm : l.origin = some m) : m = m' := by
  obtain ⟨j, hj, hm'⟩ := hr.made _ hg
  have hlast := hs.newest m hm
  rw [List.getLast?_eq_getElem?, hlen, hj, Nat.add_sub_cancel, hm'] at hlast
  exact (Option.some.inj hlast).symm

/-- What a thread knows that has come so far with `op`. -/
structure Tenure.Fits (b : Tenure) (op : Operation) (t : Thread) (l : Ledger) : Prop where
  inside : b ≠ .out → l.world.lifecycle = some t
  settled : b ≠ .out → op.makes = false → l.makers.length = l.world.generation
  aimed : b = .aimed ∨ b = .cleared → op.aims l.world.generation = true
  cleared : b = .cleared → l.world.locking .host = none

namespace Tenure

variable {b b' : Tenure} {op : Operation} {t t' : Thread} {l l' : Ledger} {a : Access} {d d' : Deed}

theorem fits_out (op : Operation) (t : Thread) (l : Ledger) : Fits .out op t l :=
  ⟨absurd rfl, absurd rfl, (nomatch ·), (nomatch ·)⟩

theorem Fits.congr (h : Fits b op t l) (hlife : l'.world.lifecycle = l.world.lifecycle)
    (hgen : l'.world.generation = l.world.generation) (hmakers : l'.makers = l.makers)
    (hlock : b = .cleared → l'.world.locking .host = l.world.locking .host) : Fits b op t l' where
  inside := fun hb => hlife.trans (h.inside hb)
  settled := by
    rw [hmakers, hgen]
    exact h.settled
  aimed := by
    rw [hgen]
    exact h.aimed
  cleared := fun hb => (hlock hb).trans (h.cleared hb)

theorem Fits.alike (h : Fits b op t l) (ha : Alike l l') : Fits b op t l' :=
  h.congr ha.lifecycle ha.generation ha.makers fun _ => ha.locking .host

/-- Other threads leave that alone. -/
theorem Fits.others (h : Fits b d.operation t l) (hadm : l.Admits False t' a)
    (hen : a.isEnabled l.world = true) (hne : t' ≠ t) (hd : d'.call ≠ d.call) :
    Fits b d.operation t (l.perform d' t' a).2 := by
  by_cases hb : b = .out
  · rw [hb]
    exact fits_out _ _ _
  · have hl := h.inside hb
    obtain ⟨hlife, hgen, -, hmakers, -⟩ := (hadm.rely hen hne hd).inside hl
    exact h.congr (hlife.trans hl.symm) hgen hmakers fun _ => hadm.locking_eq hl hne d' .host

/-- Only a call that has been given a handle for the host removes a table of the host. -/
theorem Fits.registry_eq_host (h : Fits .aimed op t l) (hs : l.Sound False)
    (hop : op.givesUp = true) (htaken : ∀ x, op.handle? = some x →
      ∃ m, Records l.makers m x ∧ m.operation.Returns op.isOnSession)
    {m : Deed} (hm : l.origin = some m) (hhost : m.operation.registry = .host) :
    op.registry = .host := by
  cases op with
  | install | teardown | newHandle | ask => exact nomatch hop
  | drop x | uninstall x =>
    obtain ⟨m', hr, -⟩ := htaken x rfl
    have hg : x.generation = some l.world.generation := beq_iff_eq.mp (h.aimed (.inl rfl))
    rw [hs.eq_of_records hr hg (h.settled (nomatch ·) rfl) hm] at hhost
    exact hr.registry.trans hhost
  | beginSession => rfl
  | finishSession x =>
    obtain ⟨m', hr, hret⟩ := htaken x.handle rfl
    replace hret : m'.operation = .beginSession := hret
    exact hr.registry.trans (congrArg Operation.registry hret)

/-- A thread knows as much as it should after an access of its own. -/
theorem Fits.own (h : Fits b op t l) (hs : l.Sound False) (hen : a.isEnabled l.world = true)
    (hallow : (Watch.tenure op).allows b a) (hl : (Watch.tenure op).leads b a l.world b')
    (hclear : ∀ r, a = .setLocking r none → (l.world.register r none).locking .host = none) :
    Fits b' op t (l.perform d t a).2 := by
  cases a with
  | takeLifecycle =>
    obtain rfl : b' = .inside := hl
    exact ⟨fun _ => rfl, fun _ _ => hs.settled (Option.isNone_iff_eq_none.mp hen), (nomatch ·),
      (nomatch ·)⟩
  | freeLifecycle =>
    obtain rfl : b' = .out := hl
    exact fits_out _ _ _
  | readGeneration =>
    have hb : b ≠ .out := hallow
    replace hl : b' = if op.aims l.world.generation then .aimed else .inside := hl
    refine ⟨fun _ => h.inside hb, fun _ => h.settled hb, fun hb' => ?_, fun hb' => ?_⟩
    · split at hl
      · assumption
      · subst hl
        exact nomatch hb'
    · subst hl
      split at hb' <;> exact nomatch hb'
  | publishTable size =>
    obtain rfl : b' = b := hl
    exact ⟨h.inside, fun _ hop => (nomatch hop.symm.trans hallow), h.aimed, h.cleared⟩
  | countInstall =>
    obtain rfl : b' = b := hl
    have hop : op.makes = true := hallow
    refine ⟨h.inside, fun _ hop' => (nomatch hop'.symm.trans hop), fun _ => ?_, h.cleared⟩
    cases op with
    | install | newHandle | beginSession => rfl
    | _ => exact nomatch hop
  | setLocking r f =>
    obtain ⟨slots, hslots⟩ := l.world.register_eq r f
    have hlife : (l.world.register r f).lifecycle = l.world.lifecycle := by rw [hslots]
    have hgen : (l.world.register r f).generation = l.world.generation := by rw [hslots]
    cases f with
    | none =>
      obtain rfl : b' = .cleared := hl
      obtain ⟨rfl, -, -⟩ := hallow
      refine ⟨fun _ => hlife.trans (h.inside (nomatch ·)), fun _ => ?_, fun _ => ?_, fun _ => ?_⟩
      · show _ → l.makers.length = (l.world.register r none).generation
        rw [hgen]
        exact h.settled (nomatch ·)
      · show op.aims (l.world.register r none).generation = true
        rw [hgen]
        exact h.aimed (.inl rfl)
      · exact hclear r rfl
    | some f =>
      obtain rfl : b' = b := hl
      exact h.congr hlife hgen rfl fun hb => absurd hb hallow
  | withdrawTable =>
    obtain rfl : b' = b := hl
    exact ⟨h.inside, h.settled, h.aimed, h.cleared⟩
  | _ =>
    obtain rfl : b' = b := hl
    exact h.alike (alike_perform d t l (by rfl))

end Tenure

end CallbackLocks
