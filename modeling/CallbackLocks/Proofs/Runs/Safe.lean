import CallbackLocks.Proofs.Runs.Conduct

/-!
# Programs that keep to what is in order

A program is safe when each of its accesses is in order at the moment that it is made, whatever
others have done since the one before, and when it ends as it should.  Others do what they can be
relied on to do, so what is said of a ledger has to survive that.

* `Ledger.Permits`   with `careful`, a removal that gets the lifecycle lock names the registry that
                     the table was made for
* `Program.Safe`     safe from a ledger on, up to a result of which `post` holds
* `Ledger.Stable`    a statement that survives what others do
* `Ledger.Fresh`, `Away`, `Held`, `Bare`   what a call knows of its tables, of the lifecycle lock
                     and, while it has that lock, of the registries
* `Safe.take`, `Safe.free`, …   one rule for each access that others would notice
-/

namespace CallbackLocks

/-- With `careful`, a removal that gets the lifecycle lock names the registry that the table was
made for. -/
def Ledger.Permits (careful : Prop) (d : Deed) (l : Ledger) (a : Access) : Prop :=
  careful → a = .takeLifecycle → ∀ r, d.operation = .teardown r →
    ∀ m, l.origin = some m → m.operation.registry = r

/-- What `who` does for `d` from the ledger on is in order, and `post` holds of its result. -/
def Program.Safe {α : Type} (careful : Prop) (d : Deed) (who : Thread) (post : α → Ledger → Prop) :
    Program α → Ledger → Prop
  | .done x, l => ∀ l', l.Rely careful d who l' → post x l'
  | .abandon _, l => l.world.lifecycle ≠ some who
  | .step a next, l => ∀ l', l.Rely careful d who l' → l'.Sound careful →
      l'.Permits careful d a → a.isEnabled l'.world = true →
      l'.Admits careful who a ∧
        (next (a.perform who l'.world).1).Safe careful d who post (l'.perform d who a).2

namespace Ledger

variable {careful : Prop} {d : Deed} {who : Thread} {l l' : Ledger}

/-! ## statements that survive -/

/-- The statement survives what others do while `who` acts for `d`. -/
def Stable (careful : Prop) (d : Deed) (who : Thread) (P : Ledger → Prop) : Prop :=
  ∀ l l', Rely careful d who l l' → P l → P l'

theorem Stable.and {P Q : Ledger → Prop} (hP : Stable careful d who P)
    (hQ : Stable careful d who Q) : Stable careful d who fun l => P l ∧ Q l :=
  fun l l' h hl => ⟨hP l l' h hl.1, hQ l l' h hl.2⟩

/-- The call has made no table so far. -/
def Fresh (d : Deed) (l : Ledger) : Prop := ∀ m ∈ l.makers, m.call ≠ d.call

def Away (who : Thread) (l : Ledger) : Prop := l.world.lifecycle ≠ some who

/-- The thread has the lifecycle lock, and this is what cannot change meanwhile. -/
structure Held (who : Thread) (makers : List Deed) (origin : Option Deed) (generation : Nat)
    (l : Ledger) : Prop where
  lifecycle : l.world.lifecycle = some who
  makers : l.makers = makers
  origin : l.origin = origin
  generation : l.world.generation = generation

/-- With `careful`, no registry holds our dispatcher. -/
def Bare (careful : Prop) (l : Ledger) : Prop :=
  careful → ∀ r, l.world.locking r ≠ some .own

theorem stable_fresh (careful : Prop) (d : Deed) (who : Thread) :
    Stable careful d who (Fresh d) := by
  intro l l' h hl m hm
  obtain ⟨more, hmore, hne⟩ := h.makers
  rw [hmore] at hm
  rcases List.mem_append.mp hm with hm | hm
  · exact hl m hm
  · exact hne m hm

theorem stable_away (careful : Prop) (d : Deed) (who : Thread) :
    Stable careful d who (Away who) := fun _ _ h hl => h.away hl

theorem stable_held (careful : Prop) (d : Deed) (who : Thread) (makers : List Deed)
    (origin : Option Deed) (generation : Nat) :
    Stable careful d who (Held who makers origin generation) := by
  intro l l' h hl
  obtain ⟨hlife, hgen, -, hmakers, horigin, -⟩ := h.inside hl.lifecycle
  exact ⟨hlife, hmakers.trans hl.makers, horigin.trans hl.origin, hgen.trans hl.generation⟩

theorem stable_bare (careful : Prop) (d : Deed) (who : Thread) (makers : List Deed)
    (origin : Option Deed) (generation : Nat) :
    Stable careful d who fun l => Held who makers origin generation l ∧ Bare careful l := by
  intro l l' h ⟨hl, hbare⟩
  obtain ⟨-, -, -, -, -, hown⟩ := h.inside hl.lifecycle
  exact ⟨stable_held careful d who makers origin generation l l' h hl,
    fun hc r hr => hbare hc r (hown hc r hr)⟩

theorem stable_records (careful : Prop) (d : Deed) (who : Thread) (h : Handle) :
    Stable careful d who fun l => Records l.makers d h := by
  intro l l' hrely hl
  obtain ⟨more, hmore, hne⟩ := hrely.makers
  show Records l'.makers d h
  rw [hmore]
  exact hl.append hne

/-- What a registry holds has no part in what is known under the lifecycle lock. -/
theorem Held.setLocking {makers : List Deed} {origin : Option Deed} {generation : Nat}
    (r : Registry) (f : Option LockCallback)
    (h : Held who makers origin generation l) :
    Held who makers origin generation (l.perform d who (.setLocking r f)).2 := by
  obtain ⟨s, hs⟩ := l.world.register_eq r f
  refine ⟨?_, h.makers, h.origin, ?_⟩
  · show (l.world.register r f).lifecycle = _
    rw [hs]
    exact h.lifecycle
  · show (l.world.register r f).generation = _
    rw [hs]
    exact h.generation

end Ledger

namespace Program

open Ledger

variable {α β : Type} {careful : Prop} {d : Deed} {who : Thread} {post : α → Ledger → Prop}
  {l : Ledger}

/-! ## safe programs -/

theorem Safe.stable (p : Program α) : Stable careful d who (p.Safe careful d who post) := by
  intro l l' h hp
  cases p with
  | done x => exact fun l'' h' => hp l'' (h.trans h')
  | abandon e => exact h.away hp
  | step a next => exact fun l'' h' => hp l'' (h.trans h')

theorem Safe.bind {p : Program α} {f : α → Program β} {post' : β → Ledger → Prop}
    (hp : p.Safe careful d who post l)
    (hf : ∀ x l', post x l' → (f x).Safe careful d who post' l') :
    (p.bind f).Safe careful d who post' l := by
  induction p generalizing l with
  | done x => exact hf x l (hp l (Rely.refl careful d who l))
  | abandon e => exact hp
  | step a next ih =>
    intro l' hrely hs hperm hen
    obtain ⟨hadm, hnext⟩ := hp l' hrely hs hperm hen
    exact ⟨hadm, ih _ hnext⟩

/-- An access of which nothing comes that others would notice. -/
theorem Safe.quiet {P : Ledger → Prop} {a : Access} {next : a.Reply → Program α}
    (hP : Stable careful d who P) (hq : IsQuiet a = true)
    (hadm : ∀ l', P l' → l'.Admits careful who a) (h : P l)
    (hnext : ∀ l' l'', P l' → l'.Sound careful → P l'' →
      (next (a.perform who l'.world).1).Safe careful d who post l'') :
    (Program.step a next).Safe careful d who post l := by
  intro l' hrely hs _ _
  have hl' : P l' := hP l l' hrely h
  have hl'' : P (l'.perform d who a).2 := hP l' _ (alike_perform d who l' hq).rely hl'
  exact ⟨hadm l' hl', hnext l' _ hl' hs hl''⟩

theorem Safe.done {x : α} (hP : Stable careful d who (post x)) (h : post x l) :
    (Program.done x).Safe careful d who post l :=
  fun l' hrely => hP l l' hrely h

variable {makers : List Deed} {origin : Option Deed} {generation : Nat}

theorem Safe.held {a : Access} {next : a.Reply → Program α} (hq : IsQuiet a = true)
    (h : Held who makers origin generation l)
    (hnext : ∀ l' l'', Held who makers origin generation l' → l'.Sound careful →
      Held who makers origin generation l'' →
      (next (a.perform who l'.world).1).Safe careful d who post l'') :
    (Program.step a next).Safe careful d who post l := by
  refine Safe.quiet (stable_held careful d who _ _ _) hq (fun l' hl' => ?_) h hnext
  cases a with
  | setId r f => exact hl'.lifecycle
  | takeLifecycle | freeLifecycle | publishTable | withdrawTable | countInstall | setLocking =>
    exact nomatch hq
  | _ => trivial

/-! ## accesses that others would notice -/

theorem Safe.take {P : Ledger → Prop} {next : Unit → Program α} (hP : Stable careful d who P)
    (h : P l)
    (hnext : ∀ l' l'', P l' → l'.Sound careful → l'.Permits careful d .takeLifecycle →
      Held who l'.makers l'.origin l'.makers.length l'' →
      (next ()).Safe careful d who post l'') :
    (Program.step .takeLifecycle next).Safe careful d who post l := by
  intro l' hrely hs hperm hen
  have hsettled := hs.settled (Option.isNone_iff_eq_none.mp hen)
  exact ⟨trivial, hnext l' _ (hP l l' hrely h) hs hperm ⟨rfl, rfl, rfl, hsettled.symm⟩⟩

theorem Safe.free {next : Unit → Program α} (h : Held who makers origin makers.length l)
    (hnext : ∀ l', Away who l' → l'.makers = makers →
      (next ()).Safe careful d who post l') :
    (Program.step .freeLifecycle next).Safe careful d who post l := by
  intro l' hrely _ _ _
  have hl' := stable_held careful d who makers origin makers.length l l' hrely h
  refine ⟨⟨hl'.lifecycle, ?_⟩, hnext _ (fun hl => nomatch hl) hl'.makers⟩
  rw [hl'.makers, hl'.generation]

theorem Safe.publish {size : Nat} {next : Unit → Program α} (h : Held who makers none generation l)
    (hnext : ∀ l', Held who (makers ++ [d]) (some d) generation l' →
      (next ()).Safe careful d who post l') :
    (Program.step (.publishTable size) next).Safe careful d who post l := by
  intro l' hrely _ _ _
  have hl' := stable_held careful d who makers none generation l l' hrely h
  refine ⟨⟨hl'.lifecycle, hl'.origin⟩, hnext _ ⟨hl'.lifecycle, ?_, rfl, hl'.generation⟩⟩
  show l'.makers ++ [d] = makers ++ [d]
  rw [hl'.makers]

theorem Safe.count {next : Unit → Program α} (h : Held who makers origin generation l)
    (hnext : ∀ l', Held who makers origin (generation + 1) l' →
      (next ()).Safe careful d who post l') :
    (Program.step .countInstall next).Safe careful d who post l := by
  intro l' hrely _ _ _
  have hl' := stable_held careful d who makers origin generation l l' hrely h
  refine ⟨hl'.lifecycle, hnext _ ⟨hl'.lifecycle, hl'.makers, hl'.origin, ?_⟩⟩
  show l'.world.generation + 1 = generation + 1
  rw [hl'.generation]

theorem Safe.register {m : Deed} {r : Registry} {next : Unit → Program α}
    (h : Held who makers (some m) generation l) (hr : m.operation.registry = r)
    (hnext : ∀ l', Held who makers (some m) generation l' →
      (next ()).Safe careful d who post l') :
    (Program.step (.setLocking r (some .own)) next).Safe careful d who post l := by
  intro l' hrely _ _ _
  have hl' := stable_held careful d who makers (some m) generation l l' hrely h
  exact ⟨⟨hl'.lifecycle, m, hl'.origin, hr⟩, hnext _ (hl'.setLocking r (some .own))⟩

/-- The registry of the table is the only one that can hold our dispatcher, so that none does once
it has been cleared. -/
theorem Safe.clear {r : Registry} {next : Unit → Program α}
    (h : Held who makers origin generation l)
    (hr : careful → ∀ m, origin = some m → m.operation.registry = r)
    (hnext : ∀ l', Held who makers origin generation l' ∧ Bare careful l' →
      (next ()).Safe careful d who post l') :
    (Program.step (.setLocking r none) next).Safe careful d who post l := by
  intro l' hrely hs _ _
  have hl' := stable_held careful d who makers origin generation l l' hrely h
  refine ⟨hl'.lifecycle, hnext _ ⟨hl'.setLocking r none, fun hc r' hown => ?_⟩⟩
  replace hown : (l'.world.register r none).locking r' = some .own := hown
  rw [World.locking_register_eq] at hown
  split at hown
  · split at hown
    · exact nomatch hown
    · exact nomatch hown
  · rename_i hne
    obtain ⟨m, hm, hmr⟩ := hs.registered hc r' hown
    exact hne (hmr.symm.trans (hr hc m (hl'.origin.symm.trans hm)))

theorem Safe.withdraw {next : Unit → Program α}
    (h : Held who makers origin generation l ∧ Bare careful l)
    (hnext : ∀ l', Held who makers none generation l' →
      (next ()).Safe careful d who post l') :
    (Program.step .withdrawTable next).Safe careful d who post l := by
  intro l' hrely _ _ _
  obtain ⟨hl', hbare⟩ := stable_bare careful d who makers origin generation l l' hrely h
  exact ⟨⟨hl'.lifecycle, hbare⟩, hnext _ ⟨hl'.lifecycle, hl'.makers, rfl, hl'.generation⟩⟩

end Program

end CallbackLocks
