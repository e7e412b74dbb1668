import CallbackLocks.Errors.Code

/-!
# Error queues

Every thread has a queue of error codes.  It keeps the newest `ErrorQueue.capacity` of them.

* `ErrorQueue.push`    a new code at the end; the oldest ones fall out of a full queue
* `ErrorQueue.pushTimes`   the same code several times
* `ErrorQueue.pushWithdrawn`   a new code that is taken back at once: all that is left of it is the
                       room that it needed
* `ErrorQueue.pop`     the oldest code taken out.  A zero code is taken out too, and reads as if the
                       queue had been empty
* `ErrorQueue.drain`   codes popped until one reads as the end of the queue

`drainList` is `drain` on a bare list: the codes before the first zero, and the rest behind it.
-/

namespace CallbackLocks

/-- The codes that one thread has yet to read, the oldest first. -/
structure ErrorQueue where
  entries : List ErrorCode
  length_le : entries.length ≤ 15
deriving DecidableEq

namespace ErrorQueue

def capacity : Nat := 15

def empty : ErrorQueue := ⟨[], by simp⟩

instance : Inhabited ErrorQueue := ⟨empty⟩

theorem ext {p q : ErrorQueue} (h : p.entries = q.entries) : p = q := by
  cases p; cases q; cases h; rfl

def push (q : ErrorQueue) (c : ErrorCode) : ErrorQueue where
  entries := (q.entries ++ [c]).drop (q.entries.length + 1 - capacity)
  length_le := by simp [capacity]; omega

def pushAll (q : ErrorQueue) (cs : List ErrorCode) : ErrorQueue := cs.foldl push q

/-- The queue with `c` at its end `times` times.  More than fill it make no difference. -/
def pushTimes (q : ErrorQueue) (c : ErrorCode) (times : Nat) : ErrorQueue :=
  q.pushAll (List.replicate (min times capacity) c)

/-- The queue after a code has been put at its end and taken back.  A full queue has lost its oldest
code over it. -/
def pushWithdrawn (q : ErrorQueue) : ErrorQueue where
  entries := q.entries.drop (q.entries.length + 1 - capacity)
  length_le := by simp [capacity]; omega

/-- The oldest code, taken out; none if there is none or it is zero. -/
def pop (q : ErrorQueue) : Option ErrorCode × ErrorQueue :=
  match q with
  | ⟨[], h⟩ => (none, ⟨[], h⟩)
  | ⟨c :: cs, h⟩ => (if c.isZero then none else some c, ⟨cs, by simp at h; omega⟩)

/-- The codes before the first zero of a list, and those behind it. -/
def drainList : List ErrorCode → List ErrorCode × List ErrorCode
  | [] => ([], [])
  | c :: cs =>
    if c.isZero then ([], cs) else (c :: (drainList cs).1, (drainList cs).2)

theorem length_drainList (cs : List ErrorCode) : (drainList cs).2.length ≤ cs.length := by
  induction cs with
  | nil => simp [drainList]
  | cons c cs ih =>
    simp only [drainList]
    split
    · simp
    · simp only [List.length_cons]; omega

/-- All codes up to the first zero one, taken out. -/
def drain (q : ErrorQueue) : List ErrorCode × ErrorQueue :=
  ((drainList q.entries).1,
    ⟨(drainList q.entries).2, Nat.le_trans (length_drainList _) q.length_le⟩)

@[simp] theorem entries_empty : empty.entries = [] := rfl

@[simp] theorem pushAll_nil (q : ErrorQueue) : q.pushAll [] = q := rfl

@[simp] theorem pushAll_cons (q : ErrorQueue) (c : ErrorCode) (cs : List ErrorCode) :
    q.pushAll (c :: cs) = (q.push c).pushAll cs := by
  simp only [pushAll, List.foldl_cons]

theorem entries_push_of_lt {q : ErrorQueue} (c : ErrorCode) (h : q.entries.length < capacity) :
    (q.push c).entries = q.entries ++ [c] := by
  have : q.entries.length + 1 - capacity = 0 := by omega
  simp [push, this]

theorem entries_push (q : ErrorQueue) (c : ErrorCode) :
    (q.push c).entries = q.pushWithdrawn.entries ++ [c] := by
  have := q.length_le
  simp only [push, pushWithdrawn, capacity]
  rw [List.drop_append_of_le_length (by omega)]

/-- Of the old codes and the new ones, the newest are kept. -/
theorem entries_pushAll (q : ErrorQueue) (cs : List ErrorCode) :
    (q.pushAll cs).entries = (q.entries ++ cs).drop (q.entries.length + cs.length - capacity) := by
  induction cs generalizing q with
  | nil =>
    have := q.length_le
    simp [capacity, Nat.sub_eq_zero_of_le this]
  | cons c cs ih =>
    have hq := q.length_le
    rw [pushAll_cons, ih]
    simp only [push, capacity, List.length_drop, List.length_append, List.length_cons,
      List.length_nil]
    rw [← List.drop_append_of_le_length (by simp; omega), List.drop_drop, List.append_assoc]
    congr 1
    omega

theorem pushTimes_eq_pushAll (q : ErrorQueue) (c : ErrorCode) (times : Nat) :
    q.pushTimes c times = q.pushAll (List.replicate times c) := by
  apply ext
  have hq := q.length_le
  simp only [pushTimes, entries_pushAll, List.length_replicate]
  obtain h | h := Nat.le_total times capacity
  · rw [Nat.min_eq_left h]
  · rw [Nat.min_eq_right h, List.drop_append, List.drop_append]
    simp only [capacity, List.drop_replicate] at *
    rw [List.drop_eq_nil_of_le (by omega), List.drop_eq_nil_of_le (by omega)]
    congr 2
    omega

/-- Draining is popping until nothing is read. -/
theorem drain_eq_pop (q : ErrorQueue) :
    q.drain = match q.pop with
      | (none, r) => ([], r)
      | (some c, r) => (c :: r.drain.1, r.drain.2) := by
  obtain ⟨_ | ⟨c, cs⟩, h⟩ := q
  · rfl
  · by_cases hc : c.isZero <;> simp [drain, pop, drainList, hc]

end ErrorQueue

end CallbackLocks
