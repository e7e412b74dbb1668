import Mathlib
import CallbackLocks.Contest

/-!
# Counting over the contestants of a contest

The invariants of a contest are sums over its contestants: how many have the lock, how many are
inside, how many increments are still to come, how much work is left.  A step replaces one or two
contestants, and a sum changes by what they add to it.

* `Contestant.hasLock`, `isInside`   what a contestant adds to the numbers of those that have the
                       lock and of those inside
* `Contestant.toWrite`   the increments that a contestant has not made
* `Contest.put`        one contestant replaced, which is all that `setPhase` and `endRound` do
* `Contest.total f`    the sum of `f` over the contestants
-/

namespace CallbackLocks

/-! ## what a contestant adds -/

/-- the thread is between its completed acquire and its release -/
def Phase.hasLock : Phase → Bool
  | .outside | .waiting => false
  | .holding | .inside | .read _ | .written | .left => true

/-- the thread has entered and not left -/
def Phase.isInside : Phase → Bool
  | .inside | .read _ | .written => true
  | .outside | .waiting | .holding | .left => false

/-- the thread has written the counter in this round -/
def Phase.hasWritten : Phase → Bool
  | .written | .left => true
  | .outside | .waiting | .holding | .inside | .read _ => false

namespace Contestant

def hasLock (k : Contestant) : Nat := k.phase.hasLock.toNat

def isInside (k : Contestant) : Nat := k.phase.isInside.toNat

/-- the increments that the contestant has not made -/
def toWrite (k : Contestant) : Nat := k.rounds - k.phase.hasWritten.toNat

end Contestant

/-! ## sums over a list -/

theorem sum_map_modify {α : Type} (f : α → Nat) (g : α → α) (l : List α) (i : Nat) (x : α)
    (h : l[i]? = some x) : ((l.modify i g).map f).sum + f x = (l.map f).sum + f (g x) := by
  induction l generalizing i with
  | nil => simp at h
  | cons y ys ih =>
    cases i with
    | zero =>
      rw [List.getElem?_cons_zero, Option.some.injEq] at h
      subst h
      simp only [List.modify_zero_cons, List.map_cons, List.sum_cons]
      omega
    | succ i =>
      have rest := ih i (by simpa using h)
      simp only [List.modify_succ_cons, List.map_cons, List.sum_cons]
      omega

theorem le_sum_map {α : Type} (f : α → Nat) (l : List α) (i : Nat) (x : α)
    (h : l[i]? = some x) : f x ≤ (l.map f).sum := by
  induction l generalizing i with
  | nil => simp at h
  | cons y ys ih =>
    cases i with
    | zero =>
      rw [List.getElem?_cons_zero, Option.some.injEq] at h
      subst h
      simp only [List.map_cons, List.sum_cons]
      omega
    | succ i =>
      have rest := ih i (by simpa using h)
      simp only [List.map_cons, List.sum_cons]
      omega

/-- two members at different places both count -/
theorem add_le_sum_map {α : Type} (f : α → Nat) (l : List α) (i j : Nat) (x y : α) (hij : i < j)
    (hi : l[i]? = some x) (hj : l[j]? = some y) : f x + f y ≤ (l.map f).sum := by
  induction l generalizing i j with
  | nil => simp at hi
  | cons z zs ih =>
    obtain ⟨j, rfl⟩ : ∃ j', j = j' + 1 := ⟨j - 1, by omega⟩
    rw [List.getElem?_cons_succ] at hj
    simp only [List.map_cons, List.sum_cons]
    cases i with
    | zero =>
      rw [List.getElem?_cons_zero, Option.some.injEq] at hi
      subst hi
      have := le_sum_map f zs j y hj
      omega
    | succ i =>
      have rest := ih i j (by omega) (by simpa using hi) hj
      omega

theorem exists_pos_of_sum_pos {α : Type} (f : α → Nat) (l : List α) (h : 0 < (l.map f).sum) :
    ∃ (i : Nat) (x : α), l[i]? = some x ∧ 0 < f x := by
  induction l with
  | nil => simp at h
  | cons y ys ih =>
    by_cases hy : 0 < f y
    · exact ⟨0, y, rfl, hy⟩
    · simp only [List.map_cons, List.sum_cons] at h
      obtain ⟨i, x, hi, hx⟩ := ih (by omega)
      exact ⟨i + 1, x, by simpa using hi, hx⟩

/-! ## one contestant replaced -/

namespace Contest

def put (c : Contest) (i : Nat) (k : Contestant) : Contest :=
  { c with contestants := c.contestants.modify i fun _ => k }

theorem getElem?_put (c : Contest) (i j : Nat) (k : Contestant) :
    (c.put i k).contestants[j]? =
      if i = j then c.contestants[j]?.map fun _ => k else c.contestants[j]? :=
  Array.getElem?_modify

theorem getElem?_put_self {c : Contest} {i : Nat} {k : Contestant} (h : c.contestants[i]? = some k)
    (k' : Contestant) : (c.put i k').contestants[i]? = some k' := by
  rw [getElem?_put, if_pos rfl, h, Option.map_some]

theorem getElem?_put_of_ne (c : Contest) {i j : Nat} (h : i ≠ j) (k : Contestant) :
    (c.put i k).contestants[j]? = c.contestants[j]? := by
  rw [getElem?_put, if_neg h]

theorem modify_eq_put {c : Contest} {i : Nat} {k : Contestant} (h : c.contestants[i]? = some k)
    (g : Contestant → Contestant) :
    { c with contestants := c.contestants.modify i g } = c.put i (g k) := by
  have harr : c.contestants.modify i g = c.contestants.modify i fun _ => g k := by
    apply Array.ext_getElem?
    intro j
    rw [Array.getElem?_modify, Array.getElem?_modify]
    by_cases hij : i = j
    · subst hij
      rw [if_pos rfl, if_pos rfl, h, Option.map_some, Option.map_some]
    · rw [if_neg hij, if_neg hij]
  rw [harr, put]

theorem setPhase_eq_put {c : Contest} {i : Nat} {k : Contestant} (h : c.contestants[i]? = some k)
    (p : Phase) : c.setPhase i p = c.put i { k with phase := p } :=
  modify_eq_put h _

theorem endRound_eq_put {c : Contest} {i : Nat} {k : Contestant} (h : c.contestants[i]? = some k) :
    c.endRound i = c.put i ⟨.outside, k.rounds - 1⟩ :=
  modify_eq_put h _

/-! ## sums over the contestants -/

def total (f : Contestant → Nat) (c : Contest) : Nat := (c.contestants.toList.map f).sum

theorem total_start (f : Contestant → Nat) (table : Option LockTable) (threads rounds : Nat) :
    (start table threads rounds).total f = threads * f ⟨.outside, rounds⟩ := by
  simp [total, start]

theorem work_eq_total (c : Contest) : c.work = c.total Contestant.work := by
  rw [work, total, List.sum_eq_foldl, List.foldl_map, ← Array.foldl_toList]

theorem total_put (f : Contestant → Nat) {c : Contest} {i : Nat} {k : Contestant}
    (h : c.contestants[i]? = some k) (k' : Contestant) :
    (c.put i k').total f + f k = c.total f + f k' := by
  simp only [total, put, Array.toList_modify]
  exact sum_map_modify f _ _ i k (by simpa using h)

theorem total_mono {f g : Contestant → Nat} (h : ∀ k, f k ≤ g k) (c : Contest) :
    c.total f ≤ c.total g := by
  unfold total
  induction c.contestants.toList with
  | nil => exact Nat.le_refl _
  | cons k ks ih =>
    have := h k
    simp only [List.map_cons, List.sum_cons]
    omega

/-- what counts at most once counts for one contestant only -/
theorem eq_of_total_le_one {f : Contestant → Nat} {c : Contest} {i j : Nat} {k m : Contestant}
    (h : c.total f ≤ 1) (hi : c.contestants[i]? = some k) (hj : c.contestants[j]? = some m)
    (hk : f k = 1) (hm : f m = 1) : i = j := by
  have hi' : c.contestants.toList[i]? = some k := by simpa using hi
  have hj' : c.contestants.toList[j]? = some m := by simpa using hj
  unfold total at h
  rcases Nat.lt_trichotomy i j with hlt | heq | hgt
  · have := add_le_sum_map f _ i j k m hlt hi' hj'
    omega
  · exact heq
  · have := add_le_sum_map f _ j i m k hgt hj' hi'
    omega

theorem exists_of_total_pos {f : Contestant → Nat} {c : Contest} (h : 0 < c.total f) :
    ∃ (i : Nat) (k : Contestant), c.contestants[i]? = some k ∧ 0 < f k := by
  obtain ⟨i, k, hi, hk⟩ := exists_pos_of_sum_pos f _ h
  exact ⟨i, k, by simpa using hi, hk⟩

end Contest

end CallbackLocks
