import CallbackLocks.Proofs.Concert.System

/-!
# Calls about tables

What threads can ask of the lock table and of handles.  Each call takes the lifecycle lock before it
does anything else, gives it back once, and has nothing left to do then.

* `World.marks`      what shows of tables that come and go
* `TableRequest`, `TableResult`, `tables`   the calls, what they return and how they are done
* `Program.Inside`   a program that has the lifecycle lock, gives it back, and is over
* `Program.Guarded`  a program that does all that it does under the lifecycle lock
* `TableRequest.guarded`   **every call about tables is guarded**
-/

namespace CallbackLocks

/-! ## what shows of tables -/

/-- It is a slot that is set, or a line that tells of a table that has come or gone. -/
def Event.isMark : Event → Bool
  | .call (.setLocking _ _ _) | .call (.setId _ _ _) => true
  | .log (.tableInstalled _) | .log (.tableRemoved _) => true
  | _ => false

/-- what shows of a table of `size` locks that comes to `r` -/
def registration (r : Registry) (size : Nat) : List Event :=
  [.call (.setId r (some .own) true), .call (.setLocking r (some .own) true),
    .log (.tableInstalled size)]

/-- what shows of a table of `size` locks that goes, by way of `r` -/
def removal (r : Registry) (size : Nat) : List Event :=
  [.call (.setId r none true), .call (.setLocking r none true), .log (.tableRemoved size)]

namespace World

def marks (w : World) : List Event := w.trace.filter Event.isMark

/-- The registry has no callback and asks for fewer locks than a table can have; there is no
table. -/
structure IsVacant (w : World) (r : Registry) : Prop where
  table : w.table = none
  locking : w.locking r = none
  count : w.lockCount r < Lifecycle.maxLocks

@[simp] theorem table_register (w : World) (r : Registry) (f : Option LockCallback) :
    (w.register r f).table = w.table := by
  obtain ⟨s, hs⟩ := w.register_eq r f
  rw [hs]

@[simp] theorem table_registerId (w : World) (r : Registry) (f : Option IdCallback) :
    (w.registerId r f).table = w.table := by
  obtain ⟨s, hs, -⟩ := w.registerId_eq r f
  rw [hs]

@[simp] theorem generation_register (w : World) (r : Registry) (f : Option LockCallback) :
    (w.register r f).generation = w.generation := by
  obtain ⟨s, hs⟩ := w.register_eq r f
  rw [hs]

@[simp] theorem generation_registerId (w : World) (r : Registry) (f : Option IdCallback) :
    (w.registerId r f).generation = w.generation := by
  obtain ⟨s, hs, -⟩ := w.registerId_eq r f
  rw [hs]

@[simp] theorem trace_register (w : World) (r : Registry) (f : Option LockCallback) :
    (w.register r f).trace = w.trace := by
  obtain ⟨s, hs⟩ := w.register_eq r f
  rw [hs]

@[simp] theorem trace_registerId (w : World) (r : Registry) (f : Option IdCallback) :
    (w.registerId r f).trace = w.trace := by
  obtain ⟨s, hs, -⟩ := w.registerId_eq r f
  rw [hs]

end World

/-! ## the calls -/

/-- What threads can ask of the lock table and of handles. -/
inductive TableRequest where
  | install (r : Registry)
  | teardown (r : Registry)
  | newHandle (r : Registry)
  | drop (h : Handle)
  | uninstall (h : Handle)
  | lockCount
deriving DecidableEq, Inhabited

inductive TableResult where
  | nothing
  | handle (h : Handle)
  | size (n : Option Nat)
deriving DecidableEq, Inhabited

namespace TableRequest

def program : TableRequest → Program TableResult
  | install r => do
    let _ ← Lifecycle.install r
    return .nothing
  | teardown r => do
    Lifecycle.teardown r
    return .nothing
  | newHandle r => do
    let h ← Handle.install r
    return .handle h
  | drop h => do
    h.drop
    return .nothing
  | uninstall h => do
    h.uninstall
    return .nothing
  | lockCount => do
    let n ← Lifecycle.lockCount
    return .size n

def uses : TableRequest → Option TableResult
  | drop h | uninstall h => some (.handle h)
  | install _ | teardown _ | newHandle _ | lockCount => none

end TableRequest

abbrev tables : Service where
  Request := TableRequest
  Result := TableResult
  program := TableRequest.program
  uses := TableRequest.uses

/-! ## programs under the lifecycle lock -/

/-- The access takes the lifecycle lock, or gives it back. -/
def Access.isOnLifecycle : Access → Bool
  | takeLifecycle | freeLifecycle => true
  | _ => false

theorem Access.isOnLifecycle_eq_false_iff (a : Access) :
    a.isOnLifecycle = false ↔ a ≠ .takeLifecycle ∧ a ≠ .freeLifecycle := by
  cases a <;> simp [isOnLifecycle]

theorem Access.lifecycle_perform {a : Access} (h : a.isOnLifecycle = false) (who : Thread)
    (w : World) : (a.perform who w).2.lifecycle = w.lifecycle := by
  cases a with
  | takeLifecycle | freeLifecycle => exact nomatch h
  | setLocking r f =>
    obtain ⟨s, hs⟩ := w.register_eq r f
    show (w.register r f).lifecycle = _
    rw [hs]
  | setId r f =>
    obtain ⟨s, hs, -⟩ := w.registerId_eq r f
    show (w.registerId r f).lifecycle = _
    rw [hs]
  | _ => rfl

namespace Program

variable {α β : Type}

/-- The program makes no more accesses. -/
def IsOver (p : Program α) : Prop := ∃ x, p = ofResult x

/-- The program has the lifecycle lock, gives it back, and is over then. -/
def Inside : Program α → Prop
  | done _ | abandon _ => False
  | step a next => a ≠ .takeLifecycle ∧
      ∀ r, if a = .freeLifecycle then (next r).IsOver else (next r).Inside

/-- The program does nothing, or takes the lifecycle lock first. -/
def Guarded (p : Program α) : Prop :=
  p.IsOver ∨ ∃ next : Unit → Program α, p = .step .takeLifecycle next ∧ (next ()).Inside

theorem isOver_done (x : α) : (done x).IsOver := ⟨.ok x, rfl⟩

theorem isOver_abandon (e : Abandoned) : (abandon e : Program α).IsOver := ⟨.error e, rfl⟩

theorem IsOver.bind {p : Program α} {f : α → Program β} (hp : p.IsOver)
    (hf : ∀ x, (f x).IsOver) : (p.bind f).IsOver := by
  obtain ⟨x, rfl⟩ := hp
  cases x with
  | ok x => exact hf x
  | error e => exact isOver_abandon e

theorem Inside.free {next : Unit → Program α} (h : (next ()).IsOver) :
    (step .freeLifecycle next).Inside :=
  ⟨(fun heq => nomatch heq), fun _ => (if_pos rfl).mpr h⟩

theorem Inside.step {a : Access} {next : a.Reply → Program α} (ha : a.isOnLifecycle = false)
    (h : ∀ r, (next r).Inside) : (Program.step a next).Inside := by
  refine ⟨?_, fun r => (if_neg ?_).mpr (h r)⟩
  · rintro rfl
    exact nomatch ha
  · rintro rfl
    exact nomatch ha

theorem Inside.bind {p : Program α} {f : α → Program β} (hp : p.Inside)
    (hf : ∀ x, (f x).IsOver) : (p.bind f).Inside := by
  induction p with
  | done x => exact hp.elim
  | abandon e => exact hp.elim
  | step a next ih =>
    refine ⟨hp.1, fun r => ?_⟩
    have hr := hp.2 r
    split at hr
    · rename_i ha
      exact (if_pos ha).mpr (hr.bind hf)
    · rename_i ha
      exact (if_neg ha).mpr (ih r hr)

theorem Guarded.bind {p : Program α} {f : α → Program β} (hp : p.Guarded)
    (hf : ∀ x, (f x).IsOver) : (p.bind f).Guarded := by
  rcases hp with hp | ⟨next, rfl, hp⟩
  · exact .inl (hp.bind hf)
  · exact .inr ⟨_, rfl, hp.bind hf⟩

end Program

/-! ## the calls are guarded -/

namespace Lifecycle

open Program

theorem inside_leave (line : LogLine) : (step (.log line) fun _ =>
    step .freeLifecycle fun _ => done (none : Option Nat)).Inside :=
  Inside.step rfl fun _ => Inside.free (isOver_done none)

theorem guarded_install (r : Registry) : (install r).Guarded := by
  simp only [install, log, access_eq, bind_eq, bind_step, bind_done, pure_eq]
  refine .inr ⟨_, rfl, Inside.step rfl fun size => ?_⟩
  cases size with
  | some n => exact inside_leave _
  | none =>
    refine Inside.step rfl fun f => ?_
    cases f with
    | some f => exact inside_leave _
    | none =>
      refine Inside.step rfl fun size => ?_
      show (if size < maxLocks then _ else _ : Program (Option Nat)).Inside
      split
      · refine Inside.step rfl fun _ => Inside.step rfl fun _ => ?_
        refine Inside.step rfl fun _ => Inside.step rfl fun _ => ?_
        refine Inside.step rfl fun _ => Inside.step rfl fun g => ?_
        exact Inside.free (isOver_done (some g))
      · exact Inside.free (isOver_abandon _)

theorem inside_remove (r : Registry) :
    ((remove r).bind fun _ => step .freeLifecycle done).Inside := by
  simp only [remove, log, access_eq, bind_eq, bind_step, bind_done]
  refine Inside.step rfl fun size => ?_
  cases size with
  | none => exact Inside.step rfl fun _ => Inside.free (isOver_done ())
  | some n =>
    refine Inside.step rfl fun _ => Inside.step rfl fun _ => ?_
    refine Inside.step rfl fun _ => Inside.step rfl fun _ => ?_
    exact Inside.free (isOver_done ())

theorem guarded_teardown (r : Registry) : (teardown r).Guarded :=
  .inr ⟨_, rfl, inside_remove r⟩

theorem guarded_removeIfCurrent (r : Registry) (g : Nat) : (removeIfCurrent r g).Guarded := by
  have hgone : ((log (.tableGone g)).bind fun _ => step .freeLifecycle done).Inside :=
    Inside.step rfl fun _ => Inside.free (isOver_done ())
  refine .inr ⟨_, rfl, ?_⟩
  simp only [isCurrent, access_eq, bind_eq, bind_step, bind_done, pure_eq]
  refine Inside.step rfl fun generation => ?_
  split
  · refine Inside.step rfl fun size => ?_
    cases size with
    | none => exact hgone
    | some n => exact inside_remove r
  · exact hgone

theorem guarded_lockCount : lockCount.Guarded :=
  .inr ⟨_, rfl, Inside.step rfl fun size => Inside.free (isOver_done size)⟩

end Lifecycle

namespace Handle

open Program

theorem guarded_drop (h : Handle) : h.drop.Guarded := by
  obtain ⟨r, g⟩ := h
  cases g with
  | none => exact .inl (isOver_done ())
  | some g =>
    refine ((Lifecycle.guarded_removeIfCurrent r g).bind fun _ => isOver_done _).bind fun h' => ?_
    exact isOver_done ()

/-- What is given up first has nothing to give up any more. -/
theorem uninstall_eq_drop (h : Handle) : h.uninstall = h.drop := by
  obtain ⟨r, g⟩ := h
  cases g with
  | none => rfl
  | some g =>
    show ((Lifecycle.removeIfCurrent r g).bind _).bind _
      = ((Lifecycle.removeIfCurrent r g).bind _).bind _
    rw [bind_assoc, bind_assoc]
    rfl

end Handle

namespace TableRequest

open Program

/-- **Every call about tables does all that it does under the lifecycle lock.** -/
theorem guarded (q : TableRequest) : q.program.Guarded := by
  cases q with
  | install r => exact (Lifecycle.guarded_install r).bind fun _ => isOver_done _
  | teardown r => exact (Lifecycle.guarded_teardown r).bind fun _ => isOver_done _
  | newHandle r =>
    exact ((Lifecycle.guarded_install r).bind fun _ => isOver_done _).bind fun _ => isOver_done _
  | drop h => exact h.guarded_drop.bind fun _ => isOver_done _
  | uninstall h =>
    have hd := h.guarded_drop
    rw [← h.uninstall_eq_drop] at hd
    exact hd.bind fun _ => isOver_done _
  | lockCount => exact Lifecycle.guarded_lockCount.bind fun _ => isOver_done _

theorem eq_nothing_of_program_eq {q : TableRequest} {x : Except Abandoned TableResult}
    (h : q.program = ofResult x) : x = .ok .nothing := by
  have hstep : ∀ {a next}, (step a next : Program TableResult) ≠ ofResult x := by
    intro a next
    cases x <;> exact fun heq => nomatch heq
  have hdrop : ∀ h' : Handle, (h'.drop.bind fun _ => done TableResult.nothing) = ofResult x →
      x = .ok .nothing := by
    intro h' heq
    obtain ⟨r, g⟩ := h'
    cases g with
    | none =>
      cases x with
      | ok x => rw [← Program.done.inj heq]
      | error e => exact nomatch heq
    | some g => exact absurd heq hstep
  cases q with
  | install r => exact absurd h hstep
  | teardown r => exact absurd h hstep
  | newHandle r => exact absurd h hstep
  | lockCount => exact absurd h hstep
  | drop h' => exact hdrop h' h
  | uninstall h' =>
    refine hdrop h' ?_
    rw [← h'.uninstall_eq_drop]
    exact h

end TableRequest

end CallbackLocks
