import CallbackLocks.Access

/-!
# Programs of accesses

* `Abandoned`        why a program gives up
* `Program`          accesses, each chosen by the replies to those before it, up to a result
* `Program.run`      all accesses of one thread in a row, with nothing between them
* `Program.bind`     one program after another; a program that gives up ends both

What holds of a program at the grain of single accesses is shown by recursion on it; what it does
when nobody comes between is read off with `run_step` and `run_bind`.
-/

namespace CallbackLocks

/-- Why a program gives up. -/
inductive Abandoned where
  /-- a table of that size cannot be made -/
  | capacityOverflow
deriving DecidableEq, Inhabited

/-- what is said of it -/
def Abandoned.message : Abandoned → String
  | capacityOverflow => "capacity overflow"

/-- Accesses, each chosen by the replies to those before it. -/
inductive Program (α : Type) where
  | done (result : α)
  | abandon (why : Abandoned)
  | step (a : Access) (next : a.Reply → Program α)

namespace Program

/-- `p`, then what its result asks for -/
def bind {α β : Type} (p : Program α) (f : α → Program β) : Program β :=
  match p with
  | done x => f x
  | abandon e => .abandon e
  | step a next => .step a fun r => (next r).bind f

instance : Monad Program where
  pure := done
  bind := bind

/-- one access, for its reply -/
def access (a : Access) : Program a.Reply := .step a .done

/-- All accesses in a row, made by `who`. -/
def run {α : Type} (who : Thread) : Program α → World → Except Abandoned α × World
  | done x, w => (.ok x, w)
  | abandon e, w => (.error e, w)
  | step a next, w => (next (a.perform who w).1).run who (a.perform who w).2

@[simp] theorem pure_eq {α : Type} (x : α) : (pure x : Program α) = done x := rfl

@[simp] theorem bind_eq {α β : Type} (p : Program α) (f : α → Program β) :
    p >>= f = p.bind f := rfl

@[simp] theorem bind_done {α β : Type} (x : α) (f : α → Program β) : (done x).bind f = f x := rfl

@[simp] theorem bind_abandon {α β : Type} (e : Abandoned) (f : α → Program β) :
    (abandon e : Program α).bind f = abandon e := rfl

@[simp] theorem bind_step {α β : Type} (a : Access) (next : a.Reply → Program α)
    (f : α → Program β) : (step a next).bind f = step a fun r => (next r).bind f := rfl

@[simp] theorem access_eq (a : Access) : access a = .step a .done := rfl

theorem bind_assoc {α β γ : Type} (p : Program α) (f : α → Program β) (g : β → Program γ) :
    (p.bind f).bind g = p.bind fun x => (f x).bind g := by
  induction p with
  | done x => rfl
  | abandon e => rfl
  | step a next ih => simp only [bind_step, ih]

@[simp] theorem run_done {α : Type} (who : Thread) (x : α) (w : World) :
    (done x).run who w = (.ok x, w) := rfl

@[simp] theorem run_abandon {α : Type} (who : Thread) (e : Abandoned) (w : World) :
    (abandon e : Program α).run who w = (.error e, w) := rfl

@[simp] theorem run_step {α : Type} (who : Thread) (a : Access) (next : a.Reply → Program α)
    (w : World) :
    (step a next).run who w = (next (a.perform who w).1).run who (a.perform who w).2 := rfl

theorem run_bind {α β : Type} (who : Thread) (p : Program α) (f : α → Program β) (w : World) :
    (p.bind f).run who w =
      match p.run who w with
      | (.ok x, w') => (f x).run who w'
      | (.error e, w') => (.error e, w') := by
  induction p generalizing w with
  | done x => rfl
  | abandon e => rfl
  | step a next ih => simp only [bind_step, run_step, ih]

end Program

end CallbackLocks
