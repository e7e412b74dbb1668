import CallbackLocks.Race

/-!
# Operations, and which call made the table

The process does not say which call made the table that is installed: it counts installations, and
a handle compares numbers.  A ledger says it, so that what is compared can be held against what is
meant.

* `Operation`        what a thread can be asked to do, and `Operation.program`, how it is done
* `Deed`             one call of an operation; no two calls have the same number
* `Ledger`           the state of the process, the calls that made tables and the one that made the
                     table that is installed
* `Ledger.perform`   one access made on behalf of a call
* `Records`          a handle is what the call `d` returned: its generation is the place of the
                     one table that `d` made
-/

namespace CallbackLocks

/-! ## operations -/

/-- What a thread can be asked to do with tables, handles and sessions. -/
inductive Operation where
  | install (r : Registry)
  | teardown (r : Registry)
  | newHandle (r : Registry)
  | drop (h : Handle)
  | uninstall (h : Handle)
  /-- ask a handle whether it owns the table -/
  | ask (h : Handle)
  | beginSession
  | finishSession (x : Session)
deriving DecidableEq, Inhabited

/-- What a call ends with that has asked a handle.  A no is like a refusal. -/
def Prize.ofAnswer : Bool → Prize
  | true => .nothing
  | false => .refusal

@[simp] theorem Prize.isSession_ofAnswer (answer : Bool) :
    (ofAnswer answer).isSession = false := by
  cases answer <;> rfl

/-- A call that asks the handle whether it owns the table. -/
def Handle.inquiry (h : Handle) : Program Prize := do
  let answer ← h.owns
  return .ofAnswer answer

namespace Operation

def program (e : Edition) : Operation → Program Prize
  | install r => RaceKind.install.entrant e r
  | teardown r => RaceKind.teardown.entrant e r
  | newHandle r => RaceKind.handle.entrant e r
  | drop h => do
    h.drop
    return .nothing
  | uninstall h => do
    h.uninstall
    return .nothing
  | ask h => h.inquiry
  | beginSession => RaceKind.session.entrant e .host
  | finishSession x => do
    x.finish e
    return .nothing

def registry : Operation → Registry
  | install r | teardown r | newHandle r => r
  | drop h | uninstall h | ask h => h.registry
  | beginSession => .host
  | finishSession x => x.handle.registry

end Operation

structure Deed where
  call : Nat
  operation : Operation
deriving DecidableEq, Inhabited

/-! ## the ledger -/

/-- The state of the process with a record of who made its tables. -/
structure Ledger where
  world : World
  /-- the calls that made tables, the oldest first -/
  makers : List Deed
  /-- the call that made the table that is installed -/
  origin : Option Deed

namespace Ledger

/-- The ledger after an access on behalf of `d` has led to the state `w`. -/
def enter (l : Ledger) (d : Deed) (w : World) : Access → Ledger
  | .publishTable _ => ⟨w, l.makers ++ [d], some d⟩
  | .withdrawTable => ⟨w, l.makers, none⟩
  | _ => ⟨w, l.makers, l.origin⟩

/-- The reply to an access by `who` on behalf of `d`, and the ledger after it. -/
def perform (d : Deed) (who : Thread) (a : Access) (l : Ledger) : a.Reply × Ledger :=
  ((a.perform who l.world).1, l.enter d (a.perform who l.world).2 a)

theorem world_perform (d : Deed) (who : Thread) (a : Access) (l : Ledger) :
    (l.perform d who a).2.world = (a.perform who l.world).2 := by
  cases a <;> rfl

/-- The calls that made tables stay, and an access adds to them at most the call it is made for. -/
theorem makers_perform (d : Deed) (who : Thread) (a : Access) (l : Ledger) :
    ∃ more, (l.perform d who a).2.makers = l.makers ++ more ∧ ∀ m ∈ more, m = d := by
  cases a with
  | publishTable size => exact ⟨[d], rfl, fun m hm => List.mem_singleton.mp hm⟩
  | _ => exact ⟨[], (List.append_nil _).symm, fun _ hm => absurd hm List.not_mem_nil⟩

theorem origin_perform (d : Deed) (who : Thread) (a : Access) (l : Ledger) :
    (l.perform d who a).2.origin = l.origin ∨ (l.perform d who a).2.origin = none ∨
      (l.perform d who a).2.origin = some d := by
  cases a with
  | publishTable size => exact .inr (.inr rfl)
  | withdrawTable => exact .inr (.inl rfl)
  | _ => exact .inl rfl

end Ledger

/-! ## what a handle stands for -/

/-- The handle `h` is what the call `d` returned: it was made for the registry of `d`, and its
generation is the place, from 1 on, of the only table that `d` made, if it made one. -/
structure Records (makers : List Deed) (d : Deed) (h : Handle) : Prop where
  registry : h.registry = d.operation.registry
  made : ∀ g, h.generation = some g → ∃ j, g = j + 1 ∧ makers[j]? = some d
  sole : ∀ (j : Nat) (m : Deed), makers[j]? = some m → m.call = d.call →
    h.generation = some (j + 1)

theorem Records.append {makers more : List Deed} {d : Deed} {h : Handle}
    (hr : Records makers d h) (hm : ∀ m ∈ more, m.call ≠ d.call) :
    Records (makers ++ more) d h where
  registry := hr.registry
  made := by
    intro g hg
    obtain ⟨j, rfl, hj⟩ := hr.made g hg
    have hlt := (List.getElem?_eq_some_iff.mp hj).1
    exact ⟨j, rfl, by rw [List.getElem?_append_left hlt, hj]⟩
  sole := by
    intro j m hj hmd
    by_cases hlt : j < makers.length
    · rw [List.getElem?_append_left hlt] at hj
      exact hr.sole j m hj hmd
    · rw [List.getElem?_append_right (Nat.le_of_not_lt hlt)] at hj
      exact absurd hmd (hm m (List.mem_of_getElem? hj))

theorem Records.of_none {makers : List Deed} {d : Deed} {r : Registry}
    (hr : r = d.operation.registry) (hm : ∀ m ∈ makers, m.call ≠ d.call) :
    Records makers d ⟨r, none⟩ where
  registry := hr
  made := fun _ hg => nomatch hg
  sole := fun _ m hj hmd => absurd hmd (hm m (List.mem_of_getElem? hj))

theorem Records.of_newest {makers : List Deed} {d : Deed} {r : Registry}
    (hr : r = d.operation.registry) (hm : ∀ m ∈ makers, m.call ≠ d.call) :
    Records (makers ++ [d]) d ⟨r, some (makers.length + 1)⟩ where
  registry := hr
  made := by
    intro g hg
    rw [Option.some.injEq] at hg
    exact ⟨makers.length, hg.symm, List.getElem?_concat_length⟩
  sole := by
    intro j m hj hmd
    by_cases hlt : j < makers.length
    · rw [List.getElem?_append_left hlt] at hj
      exact absurd hmd (hm m (List.mem_of_getElem? hj))
    · have hle := (List.getElem?_eq_some_iff.mp hj).1
      rw [List.length_append, List.length_singleton] at hle
      have hj' : j = makers.length := by omega
      rw [hj']

end CallbackLocks
