import Mathlib
import CallbackLocks.Proofs.Alone.Effects
import CallbackLocks.Proofs.Locks
import CallbackLocks.Scenario.Run
import CallbackLocks.Scenario.Table

/-!
# Calls of the dispatcher as calls on the table

With a table installed and a number that is not negative, the dispatcher does what the mode says to
the lock of that number, and nothing else.  So a list of calls comes to the same whether a table is
asked directly or the dispatcher is, whatever else the modes say and however it is reached.

* `LockCall.ofMode`   what a mode asks of a lock
* `dispatch_eq_perform`   **a dispatcher call is a call on the table**
* `LockTable.acquire_eq_error_iff`, `release_eq_error_iff`   which calls are faults of the table
* `Ask`              a call of a worker, put to the table or to the dispatcher
* `Reply.Says`       a reply of the process says what an answer of the table says
* `Stage.Serves`     the table is installed, and the dispatcher can be reached at the registry
* `Stage.Serves.step`, `Serves.run`   one call, and any number of calls, come to the same
* `dispatcher_simulates_table`   all of this, from an installation on
-/

namespace CallbackLocks

/-! ## what a mode asks for -/

namespace LockCall

/-- the number of the lock -/
def index : LockCall → Nat
  | acquire n | release n => n

/-- the lock is to be taken -/
def takes : LockCall → Bool
  | acquire _ => true
  | release _ => false

def ofMode (mode : Int32) (n : Nat) : LockCall :=
  if Mode.takes mode then acquire n else release n

theorem ofMode_eq {mode : Int32} {c : LockCall} (h : Mode.takes mode = c.takes) :
    ofMode mode c.index = c := by
  cases c <;> simp only [ofMode, h, takes, index, if_true, Bool.false_eq_true, if_false]

end LockCall

theorem dispatch_eq_perform (t : LockTable) (who : Thread) (mode : Int32) {index : Int32}
    (h : 0 ≤ index) :
    dispatch (some t) who mode index = t.perform who (.ofMode mode index.toNatClampNeg) := by
  have hneg : ¬ index < 0 := Int32.not_lt.mpr h
  cases hm : Mode.takes mode with
  | true =>
    rw [dispatch_of_takes t who hneg hm, LockCall.ofMode, if_pos hm]
    rfl
  | false =>
    rw [dispatch_of_not_takes t who hneg hm, LockCall.ofMode, hm]
    rfl

/-! ## faults of the table -/

namespace LockTable

variable {t : LockTable} {n : Nat} {f : Fault}

theorem acquire_eq_error_iff (who : Thread) :
    t.acquire who n = .error f ↔ t.size ≤ n ∧ f = .outOfRange n t.size := by
  unfold acquire
  split
  · rename_i hl
    rw [Except.error.injEq, eq_comm]
    exact (and_iff_right (Array.getElem?_eq_none_iff.mp hl)).symm
  · rename_i l hl
    exact iff_of_false (fun h => nomatch h) fun h =>
      absurd (lt_size_of_getElem? hl) (Nat.not_lt.mpr h.1)

/-- A number that the table does not have is noticed first, then that nobody holds the lock. -/
theorem release_eq_error_iff :
    t.release n = .error f ↔ (t.size ≤ n ∧ f = .outOfRange n t.size) ∨
      (n < t.size ∧ t.isHeld n = false ∧ f = .notHeld n) := by
  unfold release releaseTo
  cases hl : t.locks[n]? with
  | none =>
    have hout : t.size ≤ n := Array.getElem?_eq_none_iff.mp hl
    simp only [Except.error.injEq, hout, true_and, Nat.not_lt.mpr hout, false_and, or_false,
      eq_comm]
  | some l =>
    have hlt := lt_size_of_getElem? hl
    have hheld : t.isHeld n = l.isHeld := by simp only [isHeld, hl]
    simp only [hlt, Nat.not_le.mpr hlt, false_and, false_or, true_and, hheld]
    cases l.isHeld with
    | true => simp
    | false => simp [eq_comm]

end LockTable

/-! ## the same calls, put to either -/

/-- A call of a worker on a lock, with the mode that asks the dispatcher for it and the way to the
dispatcher. -/
structure Ask where
  worker : Nat
  call : LockCall
  mode : Int32
  via : Via
  line : Int32

namespace Ask

def onTable (a : Ask) : TableCommand :=
  match a.call with
  | .acquire n => .acquire a.worker n
  | .release n => .release a.worker n

def onDispatcher (a : Ask) : Command :=
  .call a.worker a.via a.mode (.ofNat a.call.index) a.line

/-- The number is one of 32 bits, the mode has the parity of the call, and the way is the direct one
or the registry, if that keeps what is registered. -/
structure Fits (a : Ask) (w : World) (r : Registry) : Prop where
  index : a.call.index < 2 ^ 31
  parity : a.mode.toInt % 2 = 1 ↔ a.call.takes = true
  way : a.via = .direct ∨ a.via = .registry r ∧ w.keeps r = true

theorem step_onTable (a : Ask) (t : LockTable) :
    t.step a.onTable = t.callBy (.worker a.worker) a.call := by
  obtain ⟨worker, call, mode, via, line⟩ := a
  cases call <;> rfl

theorem Fits.dispatch_eq {a : Ask} {w : World} {r : Registry} (h : a.Fits w r) (t : LockTable)
    (who : Thread) : dispatch (some t) who a.mode (.ofNat a.call.index) = t.perform who a.call := by
  have hneg : (0 : Int32) ≤ .ofNat a.call.index := by
    rw [Int32.le_iff_toInt_le, Int32.toInt_ofNat_of_lt h.index]
    exact Int.natCast_nonneg _
  have hmode : Mode.takes a.mode = a.call.takes := by
    rw [Bool.eq_iff_iff, Mode.takes_iff]
    exact h.parity
  rw [dispatch_eq_perform t who a.mode hneg, Int32.toNatClampNeg_ofNat_of_lt h.index,
    LockCall.ofMode_eq hmode]

end Ask

/-- The reply says what the answer says: how the call ended and whose waiting call returned, that
its thread waits itself, or by which fault the process has ended. -/
inductive Reply.Says : Reply → TableAnswer → Prop
  | called {x : Report} {o : Outcome} (h : x.answer = .called o) (hw : x.woken = o.woken) :
      Says (.report x) (.called o)
  | threadBlocked {x : Report} (h : x.answer = .threadBlocked) (hw : x.woken = none) :
      Says (.report x) .threadBlocked
  | ended (f : Fault) : Says (.ended f) (.ended f)

namespace Stage

open Program

/-- The table is installed, and what the registry holds, if it keeps anything, is our callback. -/
structure Serves (s : Stage) (r : Registry) (t : LockTable) : Prop where
  table : s.world.table = some t
  registry : s.hasRegistry r = true
  locking : s.world.keeps r = true → s.world.locking r = some .own

variable {s : Stage} {r : Registry} {t : LockTable} {a : Ask}

theorem Serves.reach (h : s.Serves r t) (hway : a.Fits s.world r) :
    s.canReach a.via = true ∧ ∃ s', s.reach a.via = (some .own, s') ∧ s'.Serves r t ∧
      s'.world.keeps = s.world.keeps := by
  rcases hway.way with hv | ⟨hv, hk⟩
  · rw [hv]
    exact ⟨rfl, s, rfl, h, rfl⟩
  · rw [hv]
    refine ⟨h.registry, ?_⟩
    cases r with
    | recorder i => exact ⟨s, congrArg (·, s) (h.locking hk), h, rfl⟩
    | host =>
      refine ⟨s.saw (.readLocking .host), congrArg (·, s.saw _) (h.locking hk), ?_, rfl⟩
      exact ⟨h.table, h.registry, h.locking⟩

/-- **One call comes to the same**, and the table is left the same. -/
theorem Serves.step (h : s.Serves r t) (ha : a.Fits s.world r) :
    (∃ f, t.step a.onTable = .error f ∧ s.step a.onDispatcher = .error f) ∨
      ∃ y t' x s', t.step a.onTable = .ok (y, t') ∧ s.step a.onDispatcher = .ok (x, s') ∧
        (Reply.report x).Says y ∧ s'.Serves r t' ∧ s'.world.keeps = s.world.keeps := by
  have hu : s.unseen.Serves r t := ⟨h.table, h.registry, h.locking⟩
  obtain ⟨hcan, s₁, hreach, h₁, hk⟩ := hu.reach (a := a) ⟨ha.index, ha.parity, ha.way⟩
  have hstep : s.step a.onDispatcher =
      (s.unseen.call a.worker a.via a.mode (.ofNat a.call.index) a.line).bind fun y =>
        .ok (y.2.reportOf a.onDispatcher y.1, y.2) := by
    simp only [Stage.step, Ask.onDispatcher, Command.runsWhileWaiting, Bool.not_true,
      Bool.and_false, Bool.false_eq_true, if_false, perform]
    rfl
  rw [hstep, a.step_onTable, LockTable.callBy]
  by_cases hw : t.isWaiting (.worker a.worker) = true
  · have hcall : s.unseen.call a.worker a.via a.mode (.ofNat a.call.index) a.line
        = .ok (.threadBlocked, s₁) := by
      simp only [call, hcan, Bool.not_true, Bool.false_eq_true, if_false, hreach, World.isWaiting,
        h₁.table, hw, if_true]
    rw [hcall, if_pos hw]
    exact .inr ⟨_, t, _, s₁, rfl, rfl, .threadBlocked rfl rfl, h₁, hk⟩
  · have hcall : s.unseen.call a.worker a.via a.mode (.ofNat a.call.index) a.line =
        (t.perform (.worker a.worker) a.call).bind fun y =>
          .ok (.called y.1, { s₁ with world.table := some y.2 }) := by
      simp only [call, hcan, Bool.not_true, Bool.false_eq_true, if_false, hreach, World.isWaiting,
        h₁.table, hw, ha.dispatch_eq]
      rfl
    rw [hcall, if_neg hw]
    cases hp : t.perform (.worker a.worker) a.call with
    | error f => exact .inl ⟨f, rfl, rfl⟩
    | ok y =>
      exact .inr ⟨_, y.2, _, _, rfl, rfl, .called rfl rfl, ⟨rfl, h₁.registry, h₁.locking⟩, hk⟩

/-- **Any number of calls come to the same**, up to the same fault. -/
theorem Serves.run {asks : List Ask} (h : s.Serves r t) (ha : ∀ a ∈ asks, a.Fits s.world r) :
    List.Forall₂ Reply.Says (s.run (asks.map Ask.onDispatcher))
      (t.replies (asks.map Ask.onTable)) := by
  induction asks generalizing s t with
  | nil => exact .nil
  | cons a asks ih =>
    rw [List.map_cons, List.map_cons, Stage.run, LockTable.replies]
    rcases h.step (ha a List.mem_cons_self) with ⟨f, ht, hs⟩ | ⟨y, t', x, s', ht, hs, hsays, h', hk⟩
    · rw [ht, hs]
      exact .cons (.ended f) .nil
    · rw [ht, hs]
      refine .cons hsays (ih h' fun b hb => ?_)
      have hfit := ha b (List.mem_cons_of_mem a hb)
      exact ⟨hfit.index, hfit.parity, hk ▸ hfit.way⟩

/-- An installation at a vacant registry is where this begins, with a table of as many locks as the
registry asks for. -/
theorem serves_of_install (hr : s.hasRegistry r = true) (hv : s.world.IsVacant r) :
    ∃ s', s.perform (.install r false) = .ok (.done, s') ∧
      s'.Serves r (.new (s.world.lockCount r)) ∧ s'.world.keeps = s.world.keeps := by
  obtain ⟨w, hrun, hw⟩ := Lifecycle.install_yields hv .main
  have hkeeps : w.keeps = s.world.keeps := by
    rw [World.eq_of_stock World.keeps (fun _ => rfl) hw, World.equip_eq]
    rfl
  refine ⟨{ s with world := w }, ?_, ⟨?_, hr, fun hk => ?_⟩, hkeeps⟩
  · have hdone := run_bind .main (Lifecycle.install r) (fun _ => .done ()) s.world
    rw [hrun] at hdone
    simp only [perform, doesAt, hr, if_true, does, act, Bool.false_eq_true, if_false, bind_eq,
      pure_eq, hdone, run_done]
  · refine (World.eq_of_stock World.table (fun _ => rfl) hw).trans ?_
    rw [World.equip_eq]
  · replace hk : s.world.keeps r = true := hkeeps ▸ hk
    have hholds := World.eq_of_stock (World.holds · r) (fun _ => rfl) hw
    rw [World.holds_equip, if_pos ⟨rfl, hk⟩] at hholds
    exact congrArg Slots.locking hholds

end Stage

/-! ## the dispatcher and the table -/

/-- **The dispatcher simulates the lock table.**  Without a table every call is a fault, whatever it
asks for; with one, a negative number is the first thing noticed, and any other call is the one on
the table that its mode asks for, by its parity alone.  The table refuses a number that it does not
have and a lock given back that nobody holds, in that order, and nothing else.  So from an
installation on, any calls of workers come to the same as on a bare table of as many locks, answer
by answer, up to the same fault. -/
theorem dispatcher_simulates_table :
    (∀ (who : Thread) (mode index : Int32), dispatch none who mode index = .error (.noTable index)) ∧
    (∀ (t : LockTable) (who : Thread) (mode index : Int32),
      (index < 0 → dispatch (some t) who mode index = .error (.negativeIndex index)) ∧
      (0 ≤ index → mode.toInt % 2 = 1 →
        dispatch (some t) who mode index = t.acquire who index.toNatClampNeg) ∧
      (0 ≤ index → mode.toInt % 2 = 0 →
        dispatch (some t) who mode index = t.release index.toNatClampNeg)) ∧
    (∀ (t : LockTable) (who : Thread) (n : Nat) (f : Fault),
      (t.acquire who n = .error f ↔ t.size ≤ n ∧ f = .outOfRange n t.size) ∧
      (t.release n = .error f ↔ (t.size ≤ n ∧ f = .outOfRange n t.size) ∨
        (n < t.size ∧ t.isHeld n = false ∧ f = .notHeld n))) ∧
    (∀ (index : Int32) (n size : Nat),
      (Fault.noTable index).message = s!"lock {index} requested with no lock table installed" ∧
      (Fault.negativeIndex index).message = s!"negative lock index {index}" ∧
      (Fault.outOfRange n size).message = s!"lock {n} out of range for {size} locks" ∧
      (Fault.notHeld n).message = s!"lock {n} already unlocked") ∧
    ∀ (s : Stage) (r : Registry) (asks : List Ask), s.hasRegistry r = true →
      s.world.IsVacant r → (∀ a ∈ asks, a.Fits s.world r) →
      ∃ x replies,
        s.run (.install r false :: asks.map Ask.onDispatcher) = .report x :: replies ∧
        x.answer = .done ∧ x.lockCount = some (s.world.lockCount r) ∧
        List.Forall₂ Reply.Says replies
          ((LockTable.new (s.world.lockCount r)).replies (asks.map Ask.onTable)) := by
  refine ⟨fun who mode index => dispatch_none who mode index, fun t who mode index => ⟨?_, ?_, ?_⟩,
    fun t who n f => ⟨LockTable.acquire_eq_error_iff who, LockTable.release_eq_error_iff⟩,
    fun index n size => ⟨rfl, rfl, rfl, rfl⟩, fun s r asks hr hv hfit => ?_⟩
  · exact dispatch_of_neg t who mode
  · intro hneg hodd
    exact dispatch_of_takes t who (Int32.not_lt.mpr hneg) ((Mode.takes_iff mode).mpr hodd)
  · intro hneg heven
    exact dispatch_of_not_takes t who (Int32.not_lt.mpr hneg)
      ((Mode.takes_eq_false_iff mode).mpr heven)
  · have hnobody : s.world.hasWaiting = false := by simp only [World.hasWaiting, hv.table]
    obtain ⟨s', hperform, hserves, hkeeps⟩ :=
      Stage.serves_of_install (s := s.unseen) hr ⟨hv.table, hv.locking, hv.count⟩
    have hstep : s.step (.install r false)
        = .ok (s'.reportOf (.install r false) .done, s') := by
      simp only [Stage.step, hnobody, Bool.false_and, Bool.false_eq_true, if_false, hperform]
      rfl
    refine ⟨s'.reportOf (.install r false) .done, _, ?_, rfl, ?_, hserves.run fun a ha => ?_⟩
    · rw [Stage.run, hstep]
    · exact (congrArg (Option.map LockTable.size) hserves.table).trans
        (congrArg some (LockTable.size_new _))
    · have ha' := hfit a ha
      exact ⟨ha'.index, ha'.parity, hkeeps ▸ ha'.way⟩

/-- Two workers ask for the same lock in ways that look different, the second waits for the first,
and the last call is a fault. -/
def queries : List Ask :=
  [⟨0, .acquire 1, -1, .direct, 7⟩, ⟨1, .acquire 1, 3, .registry (.recorder 0), 0⟩,
    ⟨1, .release 1, 2, .direct, 0⟩, ⟨0, .release 1, -2, .registry (.recorder 0), 0⟩,
    ⟨1, .acquire 2, 5, .direct, 0⟩]

theorem dispatcher_simulates_table_queries : ∃ x replies,
    (Stage.initial .legacy [⟨2, 1⟩] 0).run
      (.install (.recorder 0) false :: queries.map Ask.onDispatcher) = .report x :: replies ∧
    List.Forall₂ Reply.Says replies [.called (.returned none), .called .blocked, .threadBlocked,
      .called (.returned (some (.worker 1))), .ended (.outOfRange 2 2)] := by
  have hfit : ∀ a ∈ queries, a.Fits (Stage.initial .legacy [⟨2, 1⟩] 0).world (.recorder 0) := by
    intro a ha
    have hall : a.call.index < 2 ^ 31 ∧ (a.mode.toInt % 2 = 1 ↔ a.call.takes = true) ∧
        (a.via = .direct ∨ a.via = .registry (.recorder 0) ∧ true = true) := by
      revert a
      decide
    exact ⟨hall.1, hall.2.1, hall.2.2⟩
  obtain ⟨x, replies, hrun, -, -, hsays⟩ := dispatcher_simulates_table.2.2.2.2
    (.initial .legacy [⟨2, 1⟩] 0) (.recorder 0) queries rfl ⟨rfl, rfl, by decide⟩ hfit
  refine ⟨x, replies, hrun, ?_⟩
  have hreplies : (LockTable.new 2).replies (queries.map Ask.onTable) = [.called (.returned none),
      .called .blocked, .threadBlocked, .called (.returned (some (.worker 1))),
      .ended (.outOfRange 2 2)] := by
    cbv
  exact hreplies ▸ hsays

end CallbackLocks
