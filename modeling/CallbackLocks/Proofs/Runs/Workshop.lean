import CallbackLocks.Dispatch
import CallbackLocks.Proofs.Runs.Operations

/-!
# Threads at work

Any number of threads start operations, go on with them access by access, and call what a registry
holds, while other parties write into registries and change what they report.

* `Errand`, `Holding`   what a thread is in the middle of; a handle that is alive
* `Workshop`         the state of the process with the errands and the handles
* `Order`            an operation as it is asked for, with a handle named by its place
* `Outside`          what other parties can do
* `Move`, `Workshop.step`   one thing that happens; what cannot happen changes nothing
* `Workshop.step_cases`, `go_cases`, `call_cases`   what a move can come to
* `Workshop.step_preserves_at`, `step_preserves`   what holds of all of it
* `Workshop.run`     a list of moves, up to a fault
* `Workshop.keeps`   every move of a run is one that `ok` allows
-/

namespace CallbackLocks

structure Errand where
  deed : Deed
  rest : Program Prize

/-- A handle that is alive, of a session or by itself, with the call that returned it. -/
structure Holding where
  deed : Deed
  handle : Handle
  session : Bool
deriving DecidableEq, Inhabited

/-- The holdings that a call leaves its thread with. -/
def Prize.holdings (d : Deed) : Prize → List Holding
  | handle h => [⟨d, h, false⟩]
  | session x => [⟨d, x.handle, true⟩]
  | nothing | refusal => []

structure Workshop where
  ledger : Ledger
  calls : Nat
  errand : Thread → Option Errand
  live : List Holding
  /-- who has taken which lock through the dispatcher and not given it back -/
  taken : List (Thread × Nat)

/-- An operation as it is asked for. -/
inductive Order where
  | install (r : Registry)
  | teardown (r : Registry)
  | newHandle (r : Registry)
  | drop (place : Nat)
  | uninstall (place : Nat)
  | ask (place : Nat)
  | beginSession
  | finishSession (place : Nat)
deriving DecidableEq, Inhabited

/-- What parties other than the threads' operations can do. -/
inductive Outside where
  | register (r : Registry) (f : Option LockCallback)
  | registerId (r : Registry) (f : Option IdCallback)
  | report (recorder locks : Nat)
  | reportHost (locks : Int32)
  | answerStart (code : Int32) (errors : List ErrorCode)
  | seed (seeded : Bool)
  | setQueue (who : Thread) (q : ErrorQueue)

def Outside.apply (w : World) : Outside → World
  | register r f => w.register r f
  | registerId r f => w.registerId r f
  | report i n => w.setReported i n
  | reportHost n => { w with hostLocks := n }
  | answerStart code errors => { w with startCode := code, startErrors := errors }
  | seed b => { w with seeded := b }
  | setQueue who q => w.setQueue who q

/-- One thing that happens. -/
inductive Move where
  /-- a thread starts an operation -/
  | start (t : Thread) (o : Order)
  /-- a thread makes the next access of its operation, or returns from it -/
  | go (t : Thread)
  /-- another party does something -/
  | outside (o : Outside)
  /-- a thread calls what the locking slot of a registry holds; of a line, the thread at `place` is
  served -/
  | call (t : Thread) (r : Registry) (mode index line : Int32) (place : Nat)

/-- A thread starts an operation and goes on with it so many times. -/
def Move.inARow (t : Thread) (o : Order) (times : Nat) : List Move :=
  .start t o :: List.replicate times (.go t)

namespace Workshop

def initial (edition : Edition) (reported : Nat → Nat) (hostLocks : Int32) : Workshop where
  ledger := ⟨.initial edition reported hostLocks, [], none⟩
  calls := 0
  errand := fun _ => none
  live := []
  taken := []

def world (s : Workshop) : World := s.ledger.world

def setWorld (s : Workshop) (w : World) : Workshop :=
  { s with ledger := { s.ledger with world := w } }

def setErrand (s : Workshop) (t : Thread) (e : Option Errand) : Workshop :=
  { s with errand := fun t' => if t' = t then e else s.errand t' }

theorem errand_cases {s : Workshop} {t t' : Thread} {e e' : Option Errand}
    (h : (s.setErrand t e).errand t' = e') : t' = t ∧ e = e' ∨ t' ≠ t ∧ s.errand t' = e' := by
  replace h : (if t' = t then e else s.errand t') = e' := h
  split at h
  · rename_i ht
    exact .inl ⟨ht, h⟩
  · rename_i ht
    exact .inr ⟨ht, h⟩

/-! ## operations -/

/-- the operation that an order asks for, if there is such a handle -/
def operation (s : Workshop) : Order → Option Operation
  | .install r => some (.install r)
  | .teardown r => some (.teardown r)
  | .newHandle r => some (.newHandle r)
  | .drop i => match s.live[i]? with
    | some ⟨_, h, false⟩ => some (.drop h)
    | _ => none
  | .uninstall i => match s.live[i]? with
    | some ⟨_, h, false⟩ => some (.uninstall h)
    | _ => none
  | .ask i => s.live[i]?.map fun c => .ask c.handle
  | .beginSession => some .beginSession
  | .finishSession i => match s.live[i]? with
    | some ⟨_, h, true⟩ => some (.finishSession ⟨h⟩)
    | _ => none

/-- the handles that are left to others once an order has been taken -/
def liveAfter (s : Workshop) : Order → List Holding
  | .drop i | .uninstall i | .finishSession i => s.live.eraseIdx i
  | .install _ | .teardown _ | .newHandle _ | .ask _ | .beginSession => s.live

def isFree (s : Workshop) (t : Thread) : Bool := (s.errand t).isNone && !s.world.isWaiting t

theorem errand_of_isFree {s : Workshop} {t : Thread} (h : s.isFree t = true) : s.errand t = none :=
  Option.isNone_iff_eq_none.mp (Bool.and_eq_true_iff.mp h).1

def start (s : Workshop) (t : Thread) (o : Order) : Workshop :=
  match s.operation o with
  | none => s
  | some op => { s with
      calls := s.calls + 1, live := s.liveAfter o
    }.setErrand t (some ⟨⟨s.calls, op⟩, op.program s.world.edition⟩)

def go (s : Workshop) (t : Thread) : Workshop :=
  match s.errand t with
  | none => s
  | some ⟨d, .done p⟩ => { s with live := s.live ++ p.holdings d }.setErrand t none
  | some ⟨_, .abandon _⟩ => s.setErrand t none
  | some ⟨d, .step a next⟩ =>
    if a.isEnabled s.world then
      { s with ledger := (s.ledger.perform d t a).2 }.setErrand t
        (some ⟨d, next (a.perform t s.world).1⟩)
    else s

/-- What going on can come to: nothing, the end of a call, or one more access. -/
theorem go_cases (s : Workshop) (t : Thread) :
    (s.go t = s ∧ ∀ d a next, s.errand t = some ⟨d, .step a next⟩ → a.isEnabled s.world = false) ∨
    (∃ d p, s.errand t = some ⟨d, .done p⟩ ∧
      s.go t = { s with live := s.live ++ p.holdings d }.setErrand t none) ∨
    (∃ d why, s.errand t = some ⟨d, .abandon why⟩ ∧ s.go t = s.setErrand t none) ∨
    ∃ d a next, s.errand t = some ⟨d, .step a next⟩ ∧ a.isEnabled s.world = true ∧
      s.go t = { s with ledger := (s.ledger.perform d t a).2 }.setErrand t
        (some ⟨d, next (a.perform t s.world).1⟩) := by
  unfold go
  split
  · rename_i he
    exact .inl ⟨rfl, fun _ _ _ he' => nomatch he.symm.trans he'⟩
  · rename_i d p he
    exact .inr (.inl ⟨d, p, he, rfl⟩)
  · rename_i d why he
    exact .inr (.inr (.inl ⟨d, why, he, rfl⟩))
  · rename_i d a next he
    split
    · rename_i hen
      exact .inr (.inr (.inr ⟨d, a, next, he, hen, rfl⟩))
    · rename_i hen
      refine .inl ⟨rfl, fun d' a' next' he' => ?_⟩
      obtain ⟨-, hstep⟩ := Errand.mk.inj (Option.some.inj (he.symm.trans he'))
      rw [← (Program.step.inj hstep).1]
      exact Bool.eq_false_iff.mpr hen

/-! ## calls of the dispatcher -/

/-- Who has taken which lock after a call by `t` has ended so. -/
def takenAfter (taken : List (Thread × Nat)) (t : Thread) (mode : Int32) (n : Nat) :
    Outcome → List (Thread × Nat)
  | .blocked => taken
  | .returned woken =>
    if Mode.takes mode then (t, n) :: taken
    else match woken with
      | none => taken.erase (t, n)
      | some w => (w, n) :: taken.erase (t, n)

/-- A thread calls what the locking slot of `r` holds.  All of the call is one move: the slot is
read, the dispatcher looks for the table, and the lock is taken, waited for or given back, with
nobody in between.  That the dispatcher finds the table that was there when the slot was read, as
`run_keeps_going` says of it, rests on this. -/
def call (s : Workshop) (t : Thread) (r : Registry) (mode index line : Int32) (place : Nat) :
    Except Fault Workshop :=
  match s.world.locking r with
  | none => .ok s
  | some (.foreign k) => .ok (s.setWorld (s.world.saw (.call (.foreignLock k mode index line))))
  | some .own =>
    match dispatchTo place s.world.table t mode index with
    | .error f => .error f
    | .ok (o, table) => .ok { s.setWorld { s.world with table := some table } with
        taken := takenAfter s.taken t mode index.toNatClampNeg o }

/-! ## runs -/

def step (s : Workshop) : Move → Except Fault Workshop
  | .start t o => .ok (if s.isFree t then s.start t o else s)
  | .go t => .ok (s.go t)
  | .outside o => .ok (s.setWorld (o.apply s.world))
  | .call t r mode index line place =>
    if s.isFree t then s.call t r mode index line place else .ok s

theorem step_cases {s s' : Workshop} {m : Move} (hs : s.step m = .ok s') :
    s' = s ∨ (∃ t o, m = .start t o ∧ s.isFree t = true ∧ s' = s.start t o) ∨
      (∃ t, m = .go t ∧ s' = s.go t) ∨
      (∃ o, m = .outside o ∧ s' = s.setWorld (o.apply s.world)) ∨
      ∃ t r mode index line place, m = .call t r mode index line place ∧
        s.call t r mode index line place = .ok s' := by
  cases m with
  | start t o =>
    replace hs : (if s.isFree t then s.start t o else s) = s' := Except.ok.inj hs
    split at hs
    · rename_i hfree
      exact .inr (.inl ⟨t, o, rfl, hfree, hs.symm⟩)
    · exact .inl hs.symm
  | go t => exact .inr (.inr (.inl ⟨t, rfl, (Except.ok.inj hs).symm⟩))
  | outside o => exact .inr (.inr (.inr (.inl ⟨o, rfl, (Except.ok.inj hs).symm⟩)))
  | call t r mode index line place =>
    replace hs : (if s.isFree t then s.call t r mode index line place else .ok s) = .ok s' := hs
    split at hs
    · exact .inr (.inr (.inr (.inr ⟨t, r, mode, index, line, place, rfl, hs⟩)))
    · exact .inl (Except.ok.inj hs).symm

theorem call_cases {s s' : Workshop} {t : Thread} {r : Registry} {mode index line : Int32}
    {place : Nat} (hs : s.call t r mode index line place = .ok s') :
    s' = s ∨
      (∃ k, s' = s.setWorld (s.world.saw (.call (.foreignLock k mode index line)))) ∨
      ∃ o table, dispatchTo place s.world.table t mode index = .ok (o, table) ∧
        s' = { s.setWorld { s.world with table := some table } with
          taken := takenAfter s.taken t mode index.toNatClampNeg o } := by
  unfold call at hs
  split at hs
  · exact .inl (Except.ok.inj hs).symm
  · rename_i k _
    exact .inr (.inl ⟨k, (Except.ok.inj hs).symm⟩)
  · split at hs
    · exact nomatch hs
    · rename_i o table hd
      exact .inr (.inr ⟨o, table, hd, (Except.ok.inj hs).symm⟩)

/-- What holds of all that this move can come to holds after it. -/
theorem step_preserves_at {P : Workshop → Prop} {s s' : Workshop} {m : Move}
    (hs : s.step m = .ok s') (h : P s)
    (start : ∀ t o op, m = .start t o → s.isFree t = true → s.operation o = some op →
      P ({ s with calls := s.calls + 1, live := s.liveAfter o }.setErrand t
        (some ⟨⟨s.calls, op⟩, op.program s.world.edition⟩)))
    (finish : ∀ t d p, m = .go t → s.errand t = some ⟨d, .done p⟩ →
      P ({ s with live := s.live ++ p.holdings d }.setErrand t none))
    (quit : ∀ t d why, m = .go t → s.errand t = some ⟨d, .abandon why⟩ → P (s.setErrand t none))
    (perform : ∀ t d a next, m = .go t → s.errand t = some ⟨d, .step a next⟩ →
      a.isEnabled s.world = true → P ({ s with ledger := (s.ledger.perform d t a).2 }.setErrand t
        (some ⟨d, next (a.perform t s.world).1⟩)))
    (outside : ∀ o, m = .outside o → P (s.setWorld (o.apply s.world)))
    (foreign : ∀ k mode index line,
      P (s.setWorld (s.world.saw (.call (.foreignLock k mode index line)))))
    (served : ∀ place t mode index o table,
      dispatchTo place s.world.table t mode index = .ok (o, table) →
      P { s.setWorld { s.world with table := some table } with
        taken := takenAfter s.taken t mode index.toNatClampNeg o }) : P s' := by
  rcases step_cases hs with rfl | ⟨t, o, hm, hfree, rfl⟩ | ⟨t, hm, rfl⟩ | ⟨o, hm, rfl⟩ |
    ⟨t, r, mode, index, line, place, -, hs⟩
  · exact h
  · unfold Workshop.start
    split
    · exact h
    · rename_i op ho
      exact start t o op hm hfree ho
  · rcases s.go_cases t with ⟨heq, -⟩ | ⟨d, p, he, heq⟩ | ⟨d, why, he, heq⟩ |
      ⟨d, a, next, he, hen, heq⟩
    · rw [heq]
      exact h
    · rw [heq]
      exact finish t d p hm he
    · rw [heq]
      exact quit t d why hm he
    · rw [heq]
      exact perform t d a next hm he hen
  · exact outside o hm
  · rcases call_cases hs with rfl | ⟨k, rfl⟩ | ⟨o, table, hd, rfl⟩
    · exact h
    · exact foreign k mode index line
    · exact served place t mode index o table hd

/-- What holds of all that a move can come to holds after it. -/
theorem step_preserves {P : Workshop → Prop} {s s' : Workshop} {m : Move}
    (hs : s.step m = .ok s') (h : P s)
    (start : ∀ t o op, s.isFree t = true → s.operation o = some op →
      P ({ s with calls := s.calls + 1, live := s.liveAfter o }.setErrand t
        (some ⟨⟨s.calls, op⟩, op.program s.world.edition⟩)))
    (finish : ∀ t d p, s.errand t = some ⟨d, .done p⟩ →
      P ({ s with live := s.live ++ p.holdings d }.setErrand t none))
    (quit : ∀ t d why, s.errand t = some ⟨d, .abandon why⟩ → P (s.setErrand t none))
    (perform : ∀ t d a next, s.errand t = some ⟨d, .step a next⟩ → a.isEnabled s.world = true →
      P ({ s with ledger := (s.ledger.perform d t a).2 }.setErrand t
        (some ⟨d, next (a.perform t s.world).1⟩)))
    (outside : ∀ o : Outside, P (s.setWorld (o.apply s.world)))
    (foreign : ∀ k mode index line,
      P (s.setWorld (s.world.saw (.call (.foreignLock k mode index line)))))
    (served : ∀ place t mode index o table,
      dispatchTo place s.world.table t mode index = .ok (o, table) →
      P { s.setWorld { s.world with table := some table } with
        taken := takenAfter s.taken t mode index.toNatClampNeg o }) : P s' :=
  step_preserves_at hs h (fun t o op _ => start t o op) (fun t d p _ => finish t d p)
    (fun t d why _ => quit t d why) (fun t d a next _ => perform t d a next)
    (fun o _ => outside o) foreign served

def run : List Move → Workshop → Except Fault Workshop
  | [], s => .ok s
  | m :: ms, s => match s.step m with
    | .error f => .error f
    | .ok s' => run ms s'

/-- Every move of the run is one that `ok` allows at its time. -/
def keeps (ok : Workshop → Move → Bool) : List Move → Workshop → Bool
  | [], _ => true
  | m :: ms, s => ok s m && match s.step m with
    | .error _ => true
    | .ok s' => keeps ok ms s'

variable {m : Move} {ms : List Move} {s s' : Workshop}

theorem run_cons (h : s.step m = .ok s') : run (m :: ms) s = run ms s' := by
  simp only [run, h]

theorem keeps_cons {ok : Workshop → Move → Bool} (hk : keeps ok (m :: ms) s = true) :
    ok s m = true ∧ ∀ s', s.step m = .ok s' → keeps ok ms s' = true := by
  unfold keeps at hk
  rw [Bool.and_eq_true] at hk
  refine ⟨hk.1, fun s' hs => ?_⟩
  have hrest := hk.2
  rw [hs] at hrest
  exact hrest

theorem run_induction {P : List Move → Workshop → Prop}
    (hstep : ∀ m ms s s', P (m :: ms) s → s.step m = .ok s' → P ms s') (h : P ms s)
    (hr : run ms s = .ok s') : P [] s' := by
  induction ms generalizing s with
  | nil =>
    rw [← Except.ok.inj hr]
    exact h
  | cons m ms ih =>
    unfold run at hr
    split at hr
    · exact nomatch hr
    · rename_i s₁ hs₁
      exact ih (hstep m ms s s₁ h hs₁) hr

end Workshop

end CallbackLocks
