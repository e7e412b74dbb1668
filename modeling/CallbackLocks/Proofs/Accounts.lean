import Mathlib
import CallbackLocks.Proofs.Locks
import CallbackLocks.Scenario.Table

/-!
# The accounts of a lock table

Nobody is asked to behave: a thread can ask again for a lock that it has, and give back a lock that
another one took.  What is taken and given back is counted, lock by lock, and for every thread that
waits it is noted what it asked for.

* `Books`            a table with these counts and notes
* `Books.call`       a call of a thread, entered into the books
* `Books.run`        calls one after another, up to a fault
* `Balanced`         a lock is held as often as it was taken and not given back, and the lines are
                     made of the threads that wait, each of them once
* `Balanced.call`    **every call keeps the books balanced**
* `balance_of_run`   what this comes to for calls in any order
-/

namespace CallbackLocks

open Function (update)

/-! ## a table with one lock replaced, as its callers see it -/

namespace LockTable

variable {t : LockTable} {n : Nat} {l : Lock} {who : Thread}

theorem line_of_getElem? (h : t.locks[n]? = some l) : t.line n = l.line := by
  simp only [line, h]

theorem isHeld_of_getElem? (h : t.locks[n]? = some l) : t.isHeld n = l.isHeld := by
  simp only [isHeld, h]

theorem line_setLock (h : n < t.size) (l : Lock) (m : Nat) :
    (t.setLock n l).line m = if n = m then l.line else t.line m := by
  simp only [line, getElem?_setLock, if_pos h]
  by_cases hm : n = m
  · rw [if_pos hm, if_pos hm]
  · rw [if_neg hm, if_neg hm]

theorem isHeld_setLock (h : n < t.size) (l : Lock) (m : Nat) :
    (t.setLock n l).isHeld m = if n = m then l.isHeld else t.isHeld m := by
  simp only [isHeld, getElem?_setLock, if_pos h]
  by_cases hm : n = m
  · rw [if_pos hm, if_pos hm]
  · rw [if_neg hm, if_neg hm]

theorem isHeld_of_line_ne_nil (h : t.line n ≠ []) : t.isHeld n = true := by
  cases hl : t.locks[n]? with
  | none => exact absurd (by simp only [line, hl]) h
  | some l =>
    cases l with
    | free => exact absurd (line_of_getElem? hl) h
    | held ws => exact isHeld_of_getElem? hl

theorem exists_line_of_isHeld (h : t.isHeld n = true) :
    t.locks[n]? = some (.held (t.line n)) := by
  unfold isHeld at h
  cases hl : t.locks[n]? with
  | none => rw [hl] at h; exact nomatch h
  | some l =>
    cases l with
    | free => rw [hl] at h; exact nomatch h
    | held ws => rw [line_of_getElem? hl, Lock.line_held]

theorem isWaiting_iff : t.isWaiting who = true ↔ ∃ n, who ∈ t.line n := by
  unfold isWaiting
  rw [Array.any_eq_true]
  constructor
  · rintro ⟨n, hn, hw⟩
    rw [List.contains_iff_mem] at hw
    exact ⟨n, by rw [line_of_getElem? (Array.getElem?_eq_getElem hn)]; exact hw⟩
  · rintro ⟨n, hw⟩
    have hheld := exists_line_of_isHeld (isHeld_of_line_ne_nil (List.ne_nil_of_mem hw))
    obtain ⟨hn, hl⟩ := Array.getElem?_eq_some_iff.mp hheld
    refine ⟨n, hn, ?_⟩
    rw [hl, Lock.line_held, List.contains_iff_mem]
    exact hw

/-- A call that is no fault names a lock of the table, and gives back only one that is held. -/
theorem exists_lock_of_perform {c : LockCall} {r : Outcome × LockTable}
    (h : t.perform who c = .ok r) :
    ∃ n l, t.locks[n]? = some l ∧ (c = .acquire n ∨ c = .release n ∧ l.isHeld = true) := by
  cases c with
  | acquire n =>
    simp only [perform, acquire] at h
    split at h
    · cases h
    · rename_i l hl
      exact ⟨n, l, hl, .inl rfl⟩
  | release n =>
    simp only [perform, release, releaseTo] at h
    split at h
    · cases h
    · rename_i l hl
      split at h
      · rename_i hh
        exact ⟨n, l, hl, .inr ⟨rfl, hh⟩⟩
      · cases h

end LockTable

/-! ## the books -/

/-- A lock table, with what has been taken and given back. -/
structure Books where
  table : LockTable
  /-- the lock that a thread has asked for and not got yet -/
  pending : Thread → Option Nat
  /-- how many calls have got the lock -/
  taken : Nat → Nat
  /-- how many calls have given the lock back -/
  given : Nat → Nat

namespace Books

def opened (size : Nat) : Books := ⟨.new size, fun _ => none, fun _ => 0, fun _ => 0⟩

def countTaken (b : Books) (n : Nat) : Books := { b with taken := update b.taken n (b.taken n + 1) }

def countGiven (b : Books) (n : Nat) : Books := { b with given := update b.given n (b.given n + 1) }

/-- what `who` has asked for and not got -/
def setPending (b : Books) (who : Thread) (n : Option Nat) : Books :=
  { b with pending := update b.pending who n }

/-- The call that `woken` was in the middle of has got what it asked for. -/
def complete (b : Books) : Option Thread → Books
  | none => b
  | some w => match b.pending w with
    | none => b
    | some n => (b.countTaken n).setPending w none

/-- The call of `who` has ended so. -/
def enter (b : Books) (who : Thread) : LockCall → Outcome → Books
  | .acquire n, .blocked => b.setPending who (some n)
  | .acquire n, .returned woken => (b.countTaken n).complete woken
  | .release _, .blocked => b
  | .release n, .returned woken => (b.countGiven n).complete woken

/-- A call of `who`; a thread that waits is refused, and nothing is entered. -/
def call (b : Books) (who : Thread) (c : LockCall) : Except Fault (TableAnswer × Books) :=
  match b.table.callBy who c with
  | .error f => .error f
  | .ok (.called o, t) => .ok (.called o, { b with table := t }.enter who c o)
  | .ok (a, t) => .ok (a, { b with table := t })

/-- Calls one after another, each with the thread that makes it. -/
def run : List (Thread × LockCall) → Books → Except Fault Books
  | [], b => .ok b
  | (who, c) :: cs, b => match b.call who c with
    | .error f => .error f
    | .ok (_, b') => run cs b'

variable {b b' : Books} {who w : Thread} {n : Nat} {ws : List Thread}

/-! ## what a call comes to -/

theorem call_of_waiting (h : b.table.isWaiting who = true) (c : LockCall) :
    b.call who c = .ok (.threadBlocked, b) := by
  simp only [call, LockTable.callBy, h, if_true]

theorem call_of_perform {c : LockCall} {o : Outcome} {t : LockTable}
    (h : b.table.isWaiting who = false) (hc : b.table.perform who c = .ok (o, t)) :
    b.call who c = .ok (.called o, { b with table := t }.enter who c o) := by
  simp only [call, LockTable.callBy, h, hc, Bool.false_eq_true, if_false]

theorem call_of_error {c : LockCall} {f : Fault}
    (h : b.table.isWaiting who = false) (hc : b.table.perform who c = .error f) :
    b.call who c = .error f := by
  simp only [call, LockTable.callBy, h, hc, Bool.false_eq_true, if_false]

theorem acquire_free (h : b.table.isWaiting who = false) (hl : b.table.locks[n]? = some .free) :
    b.call who (.acquire n) = .ok (.called (.returned none),
      { b with table := b.table.setLock n (.held []) }.countTaken n) :=
  call_of_perform h (LockTable.acquire_of_getElem? hl)

theorem acquire_held (h : b.table.isWaiting who = false)
    (hl : b.table.locks[n]? = some (.held ws)) :
    b.call who (.acquire n) = .ok (.called .blocked,
      { b with table := b.table.setLock n (.held (ws ++ [who])) }.setPending who (some n)) :=
  call_of_perform h (LockTable.acquire_of_getElem? hl)

theorem release_alone (h : b.table.isWaiting who = false)
    (hl : b.table.locks[n]? = some (.held [])) :
    b.call who (.release n) = .ok (.called (.returned none),
      { b with table := b.table.setLock n .free }.countGiven n) :=
  call_of_perform h (LockTable.release_of_held hl)

theorem release_awaited (h : b.table.isWaiting who = false)
    (hl : b.table.locks[n]? = some (.held (w :: ws))) (hw : b.pending w = some n) :
    b.call who (.release n) = .ok (.called (.returned (some w)),
      (({ b with table := b.table.setLock n (.held ws) }.countGiven n).countTaken n).setPending w
        none) := by
  have hp : ({ b with table := b.table.setLock n (.held ws) }.countGiven n).pending w = some n := hw
  have hc : b.table.perform who (.release n) = _ := LockTable.release_of_held hl
  rw [call_of_perform h hc]
  simp only [enter, List.head?_cons, complete, reduceCtorEq, if_false, List.tail_cons, hp]

/-- A call that is no fault: its thread waits, or it finds its lock free or held. -/
theorem call_cases {c : LockCall} {a : TableAnswer} (h : b.call who c = .ok (a, b')) :
    (b.table.isWaiting who = true ∧ a = .threadBlocked ∧ b' = b) ∨
      b.table.isWaiting who = false ∧ (∃ o, a = .called o) ∧ ∃ n,
        (c = .acquire n ∧ b.table.locks[n]? = some .free) ∨
        (∃ ws, c = .acquire n ∧ b.table.locks[n]? = some (.held ws)) ∨
        ∃ ws, c = .release n ∧ b.table.locks[n]? = some (.held ws) := by
  cases hw : b.table.isWaiting who with
  | true =>
    rw [call_of_waiting hw] at h
    obtain ⟨rfl, rfl⟩ := Prod.mk.inj (Except.ok.inj h)
    exact .inl ⟨rfl, rfl, rfl⟩
  | false =>
    cases hc : b.table.perform who c with
    | error f =>
      rw [call_of_error hw hc] at h
      exact nomatch h
    | ok r =>
      rw [call_of_perform hw hc] at h
      refine .inr ⟨rfl, ⟨r.1, (Prod.mk.inj (Except.ok.inj h)).1.symm⟩, ?_⟩
      obtain ⟨n, l, hl, rfl | ⟨rfl, hh⟩⟩ := LockTable.exists_lock_of_perform hc
      · cases l with
        | free => exact ⟨n, .inl ⟨rfl, hl⟩⟩
        | held ws => exact ⟨n, .inr (.inl ⟨ws, rfl, hl⟩)⟩
      · cases l with
        | free => exact nomatch hh
        | held ws => exact ⟨n, .inr (.inr ⟨ws, rfl, hl⟩)⟩

/-! ## balanced books -/

/-- Every lock is held as often as it was taken and not given back, which is once or not at all, and
the lines are made of the threads that wait, each of them once. -/
structure Balanced (b : Books) : Prop where
  count : ∀ i, b.taken i = b.given i + (b.table.isHeld i).toNat
  line : ∀ i, (b.table.line i).Nodup
  pending : ∀ who i, who ∈ b.table.line i ↔ b.pending who = some i

theorem balanced_opened (size : Nat) : Balanced (opened size) where
  count := fun i => by simp [opened]
  line := fun i => by simp [opened]
  pending := fun who i => by simp [opened]

theorem Balanced.not_mem_line (h : b.table.isWaiting who = false) (i : Nat) :
    who ∉ b.table.line i := by
  intro hm
  rw [LockTable.isWaiting_iff.mpr ⟨i, hm⟩] at h
  exact nomatch h

theorem Balanced.pending_eq_none (hb : Balanced b) (h : b.table.isWaiting who = false) :
    b.pending who = none := by
  cases hp : b.pending who with
  | none => rfl
  | some i => exact absurd ((hb.pending who i).mpr hp) (not_mem_line h i)

/-- One lock is replaced, and what is counted and noted of it is put right; of the other locks
nothing changes. -/
theorem Balanced.setLock (hb : Balanced b) (hlt : n < b.table.size) {l : Lock}
    {pending : Thread → Option Nat} {taken given : Nat → Nat}
    (hcount : taken n = given n + l.isHeld.toNat)
    (htaken : ∀ i, i ≠ n → taken i = b.taken i) (hgiven : ∀ i, i ≠ n → given i = b.given i)
    (hline : l.line.Nodup) (hself : ∀ who, who ∈ l.line ↔ pending who = some n)
    (hother : ∀ who i, i ≠ n → (b.pending who = some i ↔ pending who = some i)) :
    Balanced ⟨b.table.setLock n l, pending, taken, given⟩ where
  count := by
    intro i
    show taken i = given i + ((b.table.setLock n l).isHeld i).toNat
    rw [LockTable.isHeld_setLock hlt]
    by_cases hi : n = i
    · rw [if_pos hi, ← hi, hcount]
    · rw [if_neg hi, htaken i (Ne.symm hi), hgiven i (Ne.symm hi), hb.count i]
  line := by
    intro i
    show ((b.table.setLock n l).line i).Nodup
    rw [LockTable.line_setLock hlt]
    by_cases hi : n = i
    · rw [if_pos hi]
      exact hline
    · rw [if_neg hi]
      exact hb.line i
  pending := by
    intro who i
    show who ∈ (b.table.setLock n l).line i ↔ pending who = some i
    rw [LockTable.line_setLock hlt]
    by_cases hi : n = i
    · rw [if_pos hi, ← hi]
      exact hself who
    · rw [if_neg hi, hb.pending who i]
      exact hother who i (Ne.symm hi)

theorem Balanced.at_lock (hb : Balanced b) {l : Lock} (hl : b.table.locks[n]? = some l) :
    b.taken n = b.given n + l.isHeld.toNat ∧ l.line.Nodup ∧
      ∀ who, who ∈ l.line ↔ b.pending who = some n := by
  rw [← LockTable.isHeld_of_getElem? hl, ← LockTable.line_of_getElem? hl]
  exact ⟨hb.count n, hb.line n, fun who => hb.pending who n⟩

theorem Balanced.take (hb : Balanced b) (hl : b.table.locks[n]? = some .free) :
    Balanced ({ b with table := b.table.setLock n (.held []) }.countTaken n) := by
  obtain ⟨hcount, -, hself⟩ := hb.at_lock hl
  refine hb.setLock (LockTable.lt_size_of_getElem? hl) ?_ (fun i hi => Function.update_of_ne hi _ _)
    (fun _ _ => rfl) List.nodup_nil hself fun _ _ _ => Iff.rfl
  rw [Function.update_self, hcount]
  rfl

theorem Balanced.wait (hb : Balanced b) (hw : b.table.isWaiting who = false)
    (hl : b.table.locks[n]? = some (.held ws)) :
    Balanced ({ b with table := b.table.setLock n (.held (ws ++ [who])) }.setPending who
      (some n)) := by
  obtain ⟨hcount, hline, hself⟩ := hb.at_lock hl
  have hnone := hb.pending_eq_none hw
  have hnot : who ∉ ws := fun hm => nomatch hnone.symm.trans ((hself who).mp hm)
  refine hb.setLock (LockTable.lt_size_of_getElem? hl) hcount (fun _ _ => rfl) (fun _ _ => rfl)
    ?_ (fun t => ?_) fun t i hi => ?_
  · rw [Lock.line_held] at hline ⊢
    rw [List.nodup_append]
    refine ⟨hline, List.pairwise_singleton _ _, fun t ht t' ht' heq => ?_⟩
    rw [List.mem_singleton] at ht'
    exact hnot (ht' ▸ heq ▸ ht)
  · rw [Lock.line_held, List.mem_append, List.mem_singleton]
    by_cases ht : t = who
    · rw [ht, Function.update_self]
      simp
    · rw [Function.update_of_ne ht, ← hself t, Lock.line_held]
      simp [ht]
  · by_cases ht : t = who
    · rw [ht, hnone, Function.update_self]
      simp [Ne.symm hi]
    · rw [Function.update_of_ne ht]

theorem Balanced.give (hb : Balanced b) (hl : b.table.locks[n]? = some (.held [])) :
    Balanced ({ b with table := b.table.setLock n .free }.countGiven n) := by
  obtain ⟨hcount, -, hself⟩ := hb.at_lock hl
  refine hb.setLock (LockTable.lt_size_of_getElem? hl) ?_ (fun _ _ => rfl)
    (fun i hi => Function.update_of_ne hi _ _) List.nodup_nil hself fun _ _ _ => Iff.rfl
  rw [Function.update_self, hcount]
  rfl

theorem Balanced.pass (hb : Balanced b) (hl : b.table.locks[n]? = some (.held (w :: ws))) :
    Balanced ((({ b with table := b.table.setLock n (.held ws) }.countGiven n).countTaken
      n).setPending w none) := by
  obtain ⟨hcount, hline, hself⟩ := hb.at_lock hl
  rw [Lock.line_held, List.nodup_cons] at hline
  have hw : b.pending w = some n := (hself w).mp List.mem_cons_self
  refine hb.setLock (LockTable.lt_size_of_getElem? hl) ?_
    (fun i hi => Function.update_of_ne hi _ _) (fun i hi => Function.update_of_ne hi _ _) hline.2
    (fun t => ?_) fun t i hi => ?_
  · show update b.taken n (b.taken n + 1) n = update b.given n (b.given n + 1) n + _
    rw [Function.update_self, Function.update_self, hcount]
    exact Nat.add_right_comm ..
  · by_cases ht : t = w
    · rw [ht, Function.update_self]
      exact ⟨fun hm => absurd hm hline.1, fun h => nomatch h⟩
    · rw [Function.update_of_ne ht]
      refine Iff.trans ?_ (hself t)
      rw [Lock.line_held, Lock.line_held, List.mem_cons, or_iff_right ht]
  · by_cases ht : t = w
    · rw [ht, hw, Function.update_self]
      simp [Ne.symm hi]
    · rw [Function.update_of_ne ht]
      rfl

/-- **Every call keeps the books balanced.** -/
theorem Balanced.call (hb : Balanced b) {c : LockCall} {a : TableAnswer}
    (h : b.call who c = .ok (a, b')) : Balanced b' := by
  rcases call_cases h with ⟨-, -, rfl⟩ | ⟨hw, -, n, ⟨rfl, hl⟩ | ⟨ws, rfl, hl⟩ | ⟨ws, rfl, hl⟩⟩
  · exact hb
  · rw [acquire_free hw hl] at h
    rw [← (Prod.mk.inj (Except.ok.inj h)).2]
    exact hb.take hl
  · rw [acquire_held hw hl] at h
    rw [← (Prod.mk.inj (Except.ok.inj h)).2]
    exact hb.wait hw hl
  · cases ws with
    | nil =>
      rw [release_alone hw hl] at h
      rw [← (Prod.mk.inj (Except.ok.inj h)).2]
      exact hb.give hl
    | cons w ws =>
      have hp := ((hb.at_lock hl).2.2 w).mp List.mem_cons_self
      rw [release_awaited hw hl hp] at h
      rw [← (Prod.mk.inj (Except.ok.inj h)).2]
      exact hb.pass hl

theorem Balanced.run {calls : List (Thread × LockCall)} (hb : Balanced b)
    (h : run calls b = .ok b') : Balanced b' := by
  induction calls generalizing b with
  | nil =>
    rw [← Except.ok.inj h]
    exact hb
  | cons c cs ih =>
    unfold Books.run at h
    split at h
    · exact nomatch h
    · rename_i hc
      exact ih (hb.call hc) h

/-! ## what calls in any order come to -/

/-- A lock that is given back goes to the first of its line. -/
theorem Balanced.exists_pass (hb : Balanced b) (hw : b.table.isWaiting who = false)
    (hline : b.table.line n = w :: ws) :
    ∃ b', b.call who (.release n) = .ok (.called (.returned (some w)), b') ∧
      b'.taken = update b.taken n (b.taken n + 1) ∧
      b'.given = update b.given n (b.given n + 1) ∧ b'.pending = update b.pending w none ∧
      b'.table.isHeld n = true ∧ b'.table.line n = ws := by
  have hheld := LockTable.isHeld_of_line_ne_nil (by rw [hline]; exact List.cons_ne_nil w ws)
  have hl := LockTable.exists_line_of_isHeld hheld
  rw [hline] at hl
  have hlt := LockTable.lt_size_of_getElem? hl
  have hp := ((hb.at_lock hl).2.2 w).mp List.mem_cons_self
  refine ⟨_, release_awaited hw hl hp, rfl, rfl, rfl, ?_, ?_⟩
  · exact (LockTable.isHeld_setLock hlt _ n).trans (if_pos rfl)
  · exact (LockTable.line_setLock hlt _ n).trans (if_pos rfl)

/-- It is free if there is no line. -/
theorem exists_give (hw : b.table.isWaiting who = false) (hheld : b.table.isHeld n = true)
    (hline : b.table.line n = []) :
    ∃ b', b.call who (.release n) = .ok (.called (.returned none), b') ∧
      b'.taken = b.taken ∧ b'.given = update b.given n (b.given n + 1) ∧
      b'.pending = b.pending ∧ b'.table.isHeld n = false := by
  have hl := LockTable.exists_line_of_isHeld hheld
  rw [hline] at hl
  refine ⟨_, release_alone hw hl, rfl, rfl, rfl, ?_⟩
  exact (LockTable.isHeld_setLock (LockTable.lt_size_of_getElem? hl) _ n).trans (if_pos rfl)

/-- To take a lock lets no other call return. -/
theorem woken_of_acquire {o : Outcome} (h : b.call who (.acquire n) = .ok (.called o, b')) :
    o.woken = none ∧ ∀ t, t ≠ who → b'.pending t = b.pending t := by
  rcases call_cases h with ⟨-, ho, -⟩ | ⟨hw, -, n', ⟨hc, hl⟩ | ⟨ws, hc, hl⟩ | ⟨ws, hc, -⟩⟩
  · exact nomatch ho
  · rw [LockCall.acquire.inj hc, acquire_free hw hl] at h
    obtain ⟨ho, hb'⟩ := Prod.mk.inj (Except.ok.inj h)
    rw [← TableAnswer.called.inj ho, ← hb']
    exact ⟨rfl, fun _ _ => rfl⟩
  · rw [LockCall.acquire.inj hc, acquire_held hw hl] at h
    obtain ⟨ho, hb'⟩ := Prod.mk.inj (Except.ok.inj h)
    rw [← TableAnswer.called.inj ho, ← hb']
    exact ⟨rfl, fun t ht => Function.update_of_ne ht _ _⟩
  · exact nomatch hc

/-- **What calls in any order come to.**  However threads take locks and give them back, as long as
no call is a fault, a lock is held if it has been taken once more than given back, and free if as
often.  Only a lock that is held is waited for, no thread waits twice, and those that wait are those
that are refused.  A lock that is given back goes to the first of its line, whose call has then got
what it asked for, and is free if there is no line; to take a lock lets no other call return. -/
theorem balance_of_run {size : Nat} {calls : List (Thread × LockCall)}
    (hr : run calls (opened size) = .ok b) :
    (∀ i, b.taken i = b.given i + (b.table.isHeld i).toNat) ∧
    (∀ i, b.table.line i ≠ [] → b.table.isHeld i = true) ∧
    (∀ who i, who ∈ b.table.line i ↔ b.pending who = some i) ∧
    (∀ who i j, who ∈ b.table.line i → who ∈ b.table.line j → i = j) ∧
    (∀ i, (b.table.line i).Nodup) ∧
    (∀ who c b', b.call who c = .ok (.threadBlocked, b') ↔
      (∃ i, who ∈ b.table.line i) ∧ b' = b) ∧
    (∀ who i w ws, (∀ j, who ∉ b.table.line j) → b.table.line i = w :: ws →
      ∃ b', b.call who (.release i) = .ok (.called (.returned (some w)), b') ∧
        b'.taken = update b.taken i (b.taken i + 1) ∧
        b'.given = update b.given i (b.given i + 1) ∧ b'.pending = update b.pending w none ∧
        b'.table.isHeld i = true ∧ b'.table.line i = ws) ∧
    (∀ who i, (∀ j, who ∉ b.table.line j) → b.table.isHeld i = true → b.table.line i = [] →
      ∃ b', b.call who (.release i) = .ok (.called (.returned none), b') ∧
        b'.taken = b.taken ∧ b'.given = update b.given i (b.given i + 1) ∧
        b'.pending = b.pending ∧ b'.table.isHeld i = false) ∧
    ∀ who i o b', b.call who (.acquire i) = .ok (.called o, b') →
      o.woken = none ∧ ∀ t, t ≠ who → b'.pending t = b.pending t := by
  have hb : Balanced b := (balanced_opened size).run hr
  have hfree : ∀ who, (∀ j, who ∉ b.table.line j) → b.table.isWaiting who = false := by
    intro who hwho
    rw [Bool.eq_false_iff]
    intro hw
    obtain ⟨j, hj⟩ := LockTable.isWaiting_iff.mp hw
    exact hwho j hj
  refine ⟨hb.count, fun i => LockTable.isHeld_of_line_ne_nil, hb.pending, ?_, hb.line, ?_,
    fun who i w ws hwho hline => hb.exists_pass (hfree who hwho) hline,
    fun who i hwho hheld hline => exists_give (hfree who hwho) hheld hline,
    fun who i o b' h => woken_of_acquire h⟩
  · intro who i j hi hj
    rw [hb.pending] at hi hj
    exact Option.some.inj (hi.symm.trans hj)
  · intro who c b'
    rw [← LockTable.isWaiting_iff]
    constructor
    · intro h
      rcases call_cases h with ⟨hw, -, hb'⟩ | ⟨-, ⟨o, ho⟩, -⟩
      · exact ⟨hw, hb'⟩
      · exact nomatch ho
    · rintro ⟨hw, rfl⟩
      exact call_of_waiting hw c

/-- A thread takes a lock twice, which stops it; another one gives the lock back for it, and a third
waits in its turn. -/
def disorder : List (Thread × LockCall) :=
  [(.worker 0, .acquire 1), (.worker 0, .acquire 1), (.worker 0, .release 1),
    (.main, .acquire 1), (.worker 2, .release 1), (.worker 0, .acquire 0)]

theorem balance_of_run_disorder : ∃ b, run disorder (opened 2) = .ok b ∧
    b.table.line 1 = [.main] ∧ b.taken 1 = 2 ∧ b.given 1 = 1 ∧
    ∃ b', b.call (.worker 2) (.release 1) = .ok (.called (.returned (some .main)), b') ∧
      b'.table.isHeld 1 = true ∧ b'.table.line 1 = [] := by
  have hseen : (run disorder (opened 2)).map (fun b =>
      (b.pending (.worker 2), b.table.line 1, b.taken 1, b.given 1)) =
        .ok (none, [.main], 2, 1) := by
    cbv
  cases hb : run disorder (opened 2) with
  | error f =>
    rw [hb] at hseen
    cases hseen
  | ok b =>
    rw [hb] at hseen
    obtain ⟨hp, hline, ht, hg⟩ : b.pending (.worker 2) = none ∧ b.table.line 1 = [.main] ∧
        b.taken 1 = 2 ∧ b.given 1 = 1 := by simpa using Except.ok.inj hseen
    have h := balance_of_run hb
    have hfree : ∀ j, .worker 2 ∉ b.table.line j :=
      fun j hj => Option.some_ne_none j (((h.2.2.1 _ j).mp hj).symm.trans hp)
    obtain ⟨b', hc, -, -, -, hheld, hline'⟩ :=
      h.2.2.2.2.2.2.1 (.worker 2) 1 .main [] hfree hline
    exact ⟨b, rfl, hline, ht, hg, b', hc, hheld, hline'⟩

end Books

end CallbackLocks
