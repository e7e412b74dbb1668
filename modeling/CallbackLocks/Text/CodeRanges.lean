/-!
# Ranges of code points

A class of characters is written down as the ranges of code points that belong to it.

* `CodeRanges`               such ranges in ascending order, both ends included
* `CodeRanges.isAscending`   each range begins above the end of the one before
* `CodeRanges.covers`        a code point belongs to the class; the search ends at the first range
                             that does not lie below it
* `CodeRanges.covers_iff`    it belongs to the class exactly if it lies in one of the ranges
-/

namespace CallbackLocks

namespace CodeRanges

/-- The ranges are ascending, and none of them begins below `bound`. -/
def isAscending : Nat → List (Nat × Nat) → Bool
  | _, [] => true
  | bound, (first, last) :: rs =>
    decide (bound ≤ first) && decide (first ≤ last) && isAscending (last + 1) rs

/-- `n` lies in one of the ranges, which are ascending. -/
def search (n : Nat) : List (Nat × Nat) → Bool
  | [] => false
  | (first, last) :: rs => decide (first ≤ n) && (decide (n ≤ last) || search n rs)

theorem le_of_ascending {bound : Nat} {rs : List (Nat × Nat)} (h : isAscending bound rs = true)
    {r : Nat × Nat} (hr : r ∈ rs) : bound ≤ r.1 := by
  induction rs generalizing bound with
  | nil => cases hr
  | cons s rs ih =>
    simp only [isAscending, Bool.and_eq_true, decide_eq_true_eq] at h
    cases hr with
    | head => exact h.1.1
    | tail _ hr =>
      have := ih h.2 hr
      omega

theorem search_iff {bound n : Nat} {rs : List (Nat × Nat)} (h : isAscending bound rs = true) :
    search n rs = true ↔ ∃ r ∈ rs, r.1 ≤ n ∧ n ≤ r.2 := by
  induction rs generalizing bound with
  | nil => simp [search]
  | cons s rs ih =>
    simp only [isAscending, Bool.and_eq_true, decide_eq_true_eq] at h
    simp only [search, Bool.and_eq_true, Bool.or_eq_true, decide_eq_true_eq, ih h.2,
      List.mem_cons]
    constructor
    · rintro ⟨hl, hu | ⟨r, hr, hn⟩⟩
      · exact ⟨s, .inl rfl, hl, hu⟩
      · exact ⟨r, .inr hr, hn⟩
    · rintro ⟨r, rfl | hr, hn⟩
      · exact ⟨hn.1, .inl hn.2⟩
      · have := le_of_ascending h.2 hr
        exact ⟨by omega, .inr ⟨r, hr, hn⟩⟩

end CodeRanges

/-- A class of characters: ascending ranges of code points, both ends included. -/
structure CodeRanges where
  ranges : List (Nat × Nat)
  ascending : CodeRanges.isAscending 0 ranges = true

namespace CodeRanges

/-- the character with the code point `n` belongs to the class -/
def covers (k : CodeRanges) (n : Nat) : Bool := search n k.ranges

theorem covers_iff (k : CodeRanges) (n : Nat) :
    k.covers n = true ↔ ∃ r ∈ k.ranges, r.1 ≤ n ∧ n ≤ r.2 := search_iff k.ascending

theorem covers_of_lt {k : CodeRanges} {bound n : Nat} (h : isAscending bound k.ranges = true)
    (hn : n < bound) : k.covers n = false := by
  rw [Bool.eq_false_iff]
  intro hc
  obtain ⟨r, hr, hl, _⟩ := (k.covers_iff n).1 hc
  have := le_of_ascending h hr
  omega

end CodeRanges

end CallbackLocks
