import CallbackLocks.Proofs.Concert.Tables
import CallbackLocks.Proofs.Concert.Watch

/-!
# Calls about sessions

What threads can ask for besides tables and handles: a session is begun, and it ends.

* `SessionRequest`, `SessionResult`, `sessions`   all calls, what they return and how they are done
* `Access.isOfSession`   the accesses that no call about tables makes
* `Access.isOfInstall`, `isOfRemoval`, `isOfInquiry`   those that such calls do make
* `TableRequest.along`   **to whoever watches for these, a call about tables does nothing**
* `Session.bringUp_along`   what is watched while the host library is brought up
-/

namespace CallbackLocks

/-! ## the calls -/

/-- What threads can ask for. -/
inductive SessionRequest where
  | table (q : TableRequest)
  | beginSession
  | finishSession (x : Session)
deriving DecidableEq, Inhabited

inductive SessionResult where
  | table (x : TableResult)
  | session (x : Session)
  | failure (f : Failure)
deriving DecidableEq, Inhabited

namespace SessionRequest

def program (e : Edition) : SessionRequest → Program SessionResult
  | table q => do
    let x ← q.program
    return .table x
  | beginSession => do
    match ← Session.begin e with
    | .ok x => return .session x
    | .error f => return .failure f
  | finishSession x => do
    x.finish e
    return .table .nothing

/-- A handle that goes away is used up, and so is a session. -/
def uses : SessionRequest → Option SessionResult
  | table q => q.uses.map .table
  | beginSession => none
  | finishSession x => some (.session x)

def isOnSession : SessionRequest → Bool
  | table _ => false
  | beginSession | finishSession _ => true

def endsSession : SessionRequest → Bool
  | finishSession _ => true
  | table _ | beginSession => false

end SessionRequest

def SessionResult.isSession : SessionResult → Bool
  | session _ => true
  | table _ | failure _ => false

/-- all calls, in a process with a host library of that kind -/
abbrev sessions (e : Edition) : Service where
  Request := SessionRequest
  Result := SessionResult
  program := SessionRequest.program e
  uses := SessionRequest.uses

/-! ## what calls about tables do not do -/

def LogLine.isOfSession : LogLine → Bool
  | seeded | begun | ended => true
  | _ => false

/-- The access is on the claim or on the host library's own state, or tells of a session. -/
def Access.isOfSession : Access → Bool
  | claim | unclaim | initHost | startHost | loadErrorStrings | drainErrors | readSeeded
  | cleanAlgorithms | cleanExtraData | freeErrorStrings => true
  | log l => l.isOfSession
  | _ => false

/-- The access is on the host library's own state, or tells that there is a seed. -/
def Access.isOfHost : Access → Bool
  | initHost | startHost | loadErrorStrings | drainErrors | readSeeded
  | cleanAlgorithms | cleanExtraData | freeErrorStrings | log .seeded => true
  | _ => false

/-- The access is one of those by which a call makes a table, or finds that it does not. -/
def Access.isOfInstall : Access → Bool
  | takeLifecycle | freeLifecycle | loadTable | readLocking _ | countLocks _ | publishTable _
  | setId _ (some _) | setLocking _ (some _) | countInstall | readGeneration => true
  | log l => !l.isOfSession
  | _ => false

/-- The access is one of those by which a call removes a table, or finds that it does not. -/
def Access.isOfRemoval : Access → Bool
  | takeLifecycle | freeLifecycle | loadTable | readGeneration | setId _ none | setLocking _ none
  | withdrawTable => true
  | log l => !l.isOfSession
  | _ => false

/-- The access is one of those by which a call asks a handle about the table. -/
def Access.isOfInquiry : Access → Bool
  | takeLifecycle | readGeneration | freeLifecycle | loadTable => true
  | _ => false

theorem Access.isOfRemoval_of_isOfInquiry {a : Access} (h : a.isOfInquiry = true) :
    a.isOfRemoval = true := by
  cases a with
  | takeLifecycle | readGeneration | freeLifecycle | loadTable => rfl
  | _ => exact nomatch h

section
variable {σ : Type} {m : Watch σ} {b : σ} {r : Registry}

theorem Watch.ignores_install (hm : ∀ a, a.isOfSession = false → m.Ignores b a) :
    ∀ a, a.isOfInstall = true → m.Ignores b a := by
  intro a ha
  refine hm a ?_
  cases a with
  | log l => exact Bool.not_eq_true' _ ▸ ha
  | claim | unclaim | initHost | startHost | loadErrorStrings | drainErrors | readSeeded
  | cleanAlgorithms | cleanExtraData | freeErrorStrings => exact nomatch ha
  | _ => rfl

theorem Watch.ignores_removal (hm : ∀ a, a.isOfSession = false → m.Ignores b a) :
    ∀ a, a.isOfRemoval = true → m.Ignores b a := by
  intro a ha
  refine hm a ?_
  cases a with
  | log l => exact Bool.not_eq_true' _ ▸ ha
  | claim | unclaim | initHost | startHost | loadErrorStrings | drainErrors | readSeeded
  | cleanAlgorithms | cleanExtraData | freeErrorStrings => exact nomatch ha
  | _ => rfl

/-- The host library never asks for more locks than a table can have. -/
theorem World.lockCount_host (w : World) : w.lockCount .host < Lifecycle.maxLocks := by
  have hlt := w.hostLocks.toInt_lt
  cases he : w.edition with
  | modern =>
    simp only [World.lockCount, he, Lifecycle.maxLocks]
    omega
  | legacy =>
    simp only [World.lockCount, he, Lifecycle.maxLocks, Int32.toNatClampNeg]
    omega

namespace Lifecycle

open Program

theorem install_along (hm : ∀ a, a.isOfInstall = true → m.Ignores b a)
    (hq : r = .host ∨ m.quits b) : (install r).Along m (fun b' _ => b' = b) b := by
  simp only [install, log, access_eq, bind_eq, bind_step, bind_done, pure_eq]
  refine Along.skip (hm _ rfl) fun _ _ => Along.skip (hm _ rfl) fun who w => ?_
  split
  · exact Along.skip (hm _ rfl) fun _ _ => Along.skip (hm _ rfl) fun _ _ => rfl
  · refine Along.skip (hm _ rfl) fun who w => ?_
    split
    · exact Along.skip (hm _ rfl) fun _ _ => Along.skip (hm _ rfl) fun _ _ => rfl
    · refine Along.skip (hm _ rfl) fun who w => ?_
      split
      · refine Along.skip (hm _ rfl) fun _ _ => Along.skip (hm _ rfl) fun _ _ => ?_
        refine Along.skip (hm _ rfl) fun _ _ => Along.skip (hm _ rfl) fun _ _ => ?_
        refine Along.skip (hm _ rfl) fun _ _ => Along.skip (hm _ rfl) fun _ _ => ?_
        exact Along.skip (hm _ rfl) fun _ _ => rfl
      · rename_i hsize
        refine Along.skip (hm _ rfl) fun _ _ => hq.resolve_left fun hr => hsize ?_
        rw [hr]
        exact w.lockCount_host

theorem remove_along (hm : ∀ a, a.isOfRemoval = true → m.Ignores b a) :
    (remove r).Along m (fun b' _ => b' = b) b := by
  simp only [remove, log, access_eq, bind_eq, bind_step, bind_done]
  refine Along.skip (hm _ rfl) fun _ _ => ?_
  split
  · exact Along.skip (hm _ rfl) fun _ _ => rfl
  · refine Along.skip (hm _ rfl) fun _ _ => Along.skip (hm _ rfl) fun _ _ => ?_
    exact Along.skip (hm _ rfl) fun _ _ => Along.skip (hm _ rfl) fun _ _ => rfl

theorem teardown_along (hm : ∀ a, a.isOfRemoval = true → m.Ignores b a) :
    (teardown r).Along m (fun b' _ => b' = b) b := by
  refine Along.skip (hm _ rfl) fun _ _ => (remove_along hm).bind fun b' _ hb => ?_
  rw [hb]
  exact Along.skip (hm _ rfl) fun _ _ => rfl

theorem removeIfCurrent_along (hm : ∀ a, a.isOfRemoval = true → m.Ignores b a) (g : Nat) :
    (removeIfCurrent r g).Along m (fun b' _ => b' = b) b := by
  have hcurrent : (isCurrent g).Along m (fun b' _ => b' = b) b := by
    refine Along.skip (hm _ rfl) fun _ _ => ?_
    show (ite _ _ _ : Program Bool).Along _ _ _
    split
    · exact Along.skip (hm _ rfl) fun _ _ => rfl
    · exact rfl
  have hfree : ∀ b' (_ : Unit), b' = b →
      (access .freeLifecycle).Along m (fun b' _ => b' = b) b' := by
    intro b' _ hb
    rw [hb]
    exact Along.skip (hm _ rfl) fun _ _ => rfl
  refine Along.skip (hm _ rfl) fun _ _ => hcurrent.bind fun b' current hb => ?_
  rw [hb]
  cases current with
  | true => exact (remove_along hm).bind hfree
  | false => exact Along.skip (hm _ rfl) fun _ _ => hfree b () rfl

theorem lockCount_along (hm : ∀ a, a.isOfRemoval = true → m.Ignores b a) :
    lockCount.Along m (fun b' _ => b' = b) b := by
  refine Along.skip (hm _ rfl) fun _ _ => Along.skip (hm _ rfl) fun _ _ => ?_
  exact Along.skip (hm _ rfl) fun _ _ => rfl

end Lifecycle

namespace Handle

open Program

theorem release_along (hm : ∀ a, a.isOfRemoval = true → m.Ignores b a) (h : Handle) :
    h.release.Along m (fun b' h' => b' = b ∧ h'.generation = none) b := by
  obtain ⟨r, g⟩ := h
  cases g with
  | none => exact ⟨rfl, rfl⟩
  | some g => exact (Lifecycle.removeIfCurrent_along hm g).bind fun _ _ hb => ⟨hb, rfl⟩

theorem drop_along (hm : ∀ a, a.isOfRemoval = true → m.Ignores b a) (h : Handle) :
    h.drop.Along m (fun b' _ => b' = b) b :=
  (release_along hm h).bind fun _ _ hb => hb.1

theorem install_along (hm : ∀ a, a.isOfInstall = true → m.Ignores b a)
    (hq : r = .host ∨ m.quits b) : (install r).Along m (fun b' _ => b' = b) b :=
  (Lifecycle.install_along hm hq).bind fun _ _ hb => hb

theorem inquiry_along (hm : ∀ a, a.isOfInquiry = true → m.Ignores b a) (h : Handle) :
    h.inquiry.Along m (fun b' p => b' = b ∧ p.isSession = false) b := by
  cases hg : h.generation with
  | none =>
    rw [inquiry_of_none hg]
    exact ⟨rfl, rfl⟩
  | some g =>
    rw [inquiry_of_some hg]
    refine Along.skip (hm _ rfl) fun _ _ => Along.skip (hm _ rfl) fun who w => ?_
    refine Along.skip (hm _ rfl) fun _ _ => ?_
    by_cases hsame : (Access.readGeneration.perform who w).1 = g
    · rw [look_of_same hsame]
      exact Along.skip (hm _ rfl) fun _ _ => ⟨rfl, Prize.isSession_ofAnswer _⟩
    · rw [look_of_not_same hsame]
      exact ⟨rfl, rfl⟩

end Handle

/-- **To whoever watches for sessions, a call about tables does nothing.** -/
theorem TableRequest.along (hm : ∀ a, a.isOfSession = false → m.Ignores b a) (hq : m.quits b)
    (q : TableRequest) : q.program.Along m (fun b' _ => b' = b) b := by
  have hi := Watch.ignores_install hm
  have hr := Watch.ignores_removal hm
  cases q with
  | install r => exact (Lifecycle.install_along hi (.inr hq)).bind fun _ _ hb => hb
  | teardown r => exact (Lifecycle.teardown_along hr).bind fun _ _ hb => hb
  | newHandle r => exact (Handle.install_along hi (.inr hq)).bind fun _ _ hb => hb
  | drop h => exact (h.drop_along hr).bind fun _ _ hb => hb
  | uninstall h =>
    have hd := h.drop_along hr
    rw [← h.uninstall_eq_drop] at hd
    exact hd.bind fun _ _ hb => hb
  | lockCount => exact (Lifecycle.lockCount_along hr).bind fun _ _ hb => hb

/-! ## the parts of a call about sessions -/

namespace Session

open Program

theorem start_along (hm : ∀ a, a.isOfHost = true → m.Ignores b a) (e : Edition) :
    (start e).Along m (fun b' _ => b' = b) b := by
  cases e with
  | modern => exact Along.skip (hm _ rfl) fun _ _ => rfl
  | legacy =>
    refine Along.skip (hm _ rfl) fun who w => ?_
    show (ite _ _ _ : Program _).Along _ _ _
    split
    · exact Along.skip (hm _ rfl) fun _ _ => rfl
    · exact Along.skip (hm _ rfl) fun _ _ => rfl

theorem cleanUp_along (hm : ∀ a, a.isOfHost = true → m.Ignores b a) (e : Edition) :
    (cleanUp e).Along m (fun b' _ => b' = b) b := by
  cases e with
  | modern => exact rfl
  | legacy =>
    refine Along.skip (hm _ rfl) fun _ _ => Along.skip (hm _ rfl) fun _ _ => ?_
    exact Along.skip (hm _ rfl) fun _ _ => rfl

theorem seed_along (hm : ∀ a, a.isOfHost = true → m.Ignores b a) :
    seed.Along m (fun b' _ => b' = b) b := by
  refine Along.skip (hm _ rfl) fun who w => ?_
  show (ite _ _ _ : Program _).Along _ _ _
  split
  · exact Along.skip (hm _ rfl) fun _ _ => rfl
  · exact rfl

/-- What is watched stays as it is while the host library is brought up, if it does while a handle
for the host is got and given up. -/
theorem bringUp_along (hm : ∀ a, a.isOfHost = true → m.Ignores b a)
    (hinstall : (Lifecycle.install .host).Along m (fun b' _ => b' = b) b)
    (hdrop : ∀ g, (Handle.mk .host g).drop.Along m (fun b' _ => b' = b) b) (e : Edition) :
    (bringUp e).Along m (fun b' _ => b' = b) b := by
  refine (start_along hm e).bind fun b' started hb => ?_
  rw [hb]
  cases started with
  | error f => exact rfl
  | ok _ =>
    have hhandle : (Handle.install .host).Along m (fun b' h => b' = b ∧ h.registry = .host) b :=
      hinstall.bind fun _ _ hb => ⟨hb, rfl⟩
    refine hhandle.bind fun b' ⟨r, g⟩ ⟨hb, hr⟩ => ?_
    obtain rfl : r = .host := hr
    rw [hb]
    refine (seed_along hm).bind fun b' seeded hb => ?_
    rw [hb]
    cases seeded with
    | ok _ => exact rfl
    | error f =>
      refine (cleanUp_along hm e).bind fun b' _ hb => ?_
      rw [hb]
      exact (hdrop g).bind fun _ _ hb => hb

end Session

end

end CallbackLocks
