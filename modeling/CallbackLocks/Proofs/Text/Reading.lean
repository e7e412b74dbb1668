import CallbackLocks.Text.Hex

/-!
# Text that can be read back

Numbers written in hexadecimal digits, and texts written one after another with a mark between them.

* `Hex.value`, `Hex.number`   what a digit stands for, and what a row of digits does
* `Hex.number_upperDigits`   **the digits of a number stand for it**, however many zeros fill them up
* `Hex.exists_of_mem_upperDigits`   they are digits and nothing else
* `mark`             the comma and the space that stand between two texts
* `pieces`           a text taken apart at its marks, the first of them first
* `pieces_intercalate`   **texts without a mark in them come back one by one**

A text may end in a comma: the mark behind it begins with a comma of its own, so the two cannot be
taken for each other.
-/

namespace CallbackLocks

/-! ## digits -/

namespace Hex

/-- what an upper case digit stands for -/
def value (c : Char) : Nat := if c.isDigit then c.toNat - 48 else c.toNat - 55

/-- what a row of upper case digits stands for, the highest first -/
def number (ds : List Char) : Nat := ds.foldl (fun n c => 16 * n + value c) 0

/-- the upper case digit for a number below sixteen -/
def upperDigit (d : Nat) : Char := (Nat.digitChar d).toUpper

theorem value_upperDigit {d : Nat} (h : d < 16) : value (upperDigit d) = d := by
  revert d
  decide

theorem upperDigit_ne {d : Nat} (h : d < 16) : upperDigit d ≠ ':' ∧ upperDigit d ≠ ',' := by
  revert d
  decide

theorem number_concat (ds : List Char) (c : Char) :
    number (ds ++ [c]) = 16 * number ds + value c := by
  simp [number]

theorem number_replicate (k : Nat) (ds : List Char) :
    number (List.replicate k '0' ++ ds) = number ds := by
  induction k with
  | zero => rfl
  | succ k ih => exact ih

theorem number_digits (n : Nat) : number ((digits n).map Char.toUpper) = n := by
  induction n using Nat.strongRecOn with
  | ind n ih =>
    by_cases h : n < 16
    · show number ((Nat.toDigits 16 n).map Char.toUpper) = n
      rw [Nat.toDigits_of_lt_base h]
      show 16 * 0 + value (upperDigit n) = n
      rw [value_upperDigit h]
      omega
    · have hrec := ih (n / 16) (by omega)
      have hlast := value_upperDigit (Nat.mod_lt n (by omega : 0 < 16))
      show number ((Nat.toDigits 16 n).map Char.toUpper) = n
      rw [Nat.toDigits_of_base_le (by omega) (by omega), List.map_append, List.map_singleton,
        number_concat]
      show 16 * number ((digits (n / 16)).map Char.toUpper) + value (upperDigit (n % 16)) = n
      rw [hrec, hlast]
      omega

/-- **The digits of a number stand for it**, whatever the width. -/
theorem number_upperDigits (width n : Nat) : number (upperDigits width n) = n := by
  rw [upperDigits, List.leftpad, number_replicate, number_digits]

theorem exists_of_mem_digits {n : Nat} {c : Char} (h : c ∈ digits n) :
    ∃ d < 16, c = Nat.digitChar d := by
  induction n using Nat.strongRecOn with
  | ind n ih =>
    by_cases hn : n < 16
    · have h' : c ∈ Nat.toDigits 16 n := h
      rw [Nat.toDigits_of_lt_base hn, List.mem_singleton] at h'
      exact ⟨n, hn, h'⟩
    · have h' : c ∈ Nat.toDigits 16 n := h
      rw [Nat.toDigits_of_base_le (by omega) (by omega), List.mem_append,
        List.mem_singleton] at h'
      rcases h' with h' | h'
      · exact ih (n / 16) (by omega) h'
      · exact ⟨n % 16, Nat.mod_lt n (by omega), h'⟩

/-- What is written for a number is digits, and nothing else. -/
theorem exists_of_mem_upperDigits {width n : Nat} {c : Char} (h : c ∈ upperDigits width n) :
    ∃ d < 16, c = upperDigit d := by
  rw [upperDigits, List.leftpad, List.mem_append] at h
  rcases h with h | h
  · exact ⟨0, by omega, (List.mem_replicate.mp h).2⟩
  · obtain ⟨e, he, rfl⟩ := List.mem_map.mp h
    obtain ⟨d, hd, rfl⟩ := exists_of_mem_digits he
    exact ⟨d, hd, rfl⟩

end Hex

/-! ## marks -/

/-- what stands between two texts -/
def mark : List Char := [',', ' ']

/-- Two characters stand side by side in one of two texts if they do so in both with a third
character between them. -/
theorem pair_infix_of_append {x y m : Char} (hx : x ≠ m) (hy : y ≠ m) {l₁ l₂ : List Char}
    (h : [x, y] <:+: l₁ ++ m :: l₂) : [x, y] <:+: l₁ ∨ [x, y] <:+: l₂ := by
  induction l₁ with
  | nil =>
    rw [List.nil_append, List.infix_cons_iff] at h
    rcases h with h | h
    · exact absurd (List.cons_prefix_cons.mp h).1 hx
    · exact .inr h
  | cons a l₁ ih =>
    rw [List.cons_append, List.infix_cons_iff] at h
    rcases h with h | h
    · obtain ⟨hxa, hrest⟩ := List.cons_prefix_cons.mp h
      cases l₁ with
      | nil => exact absurd (List.cons_prefix_cons.mp hrest).1 hy
      | cons b l₁ =>
        have hyb := (List.cons_prefix_cons.mp hrest).1
        rw [hxa, hyb]
        exact .inl ⟨[], l₁, rfl⟩
    · rcases ih h with h' | h'
      · exact .inl (List.infix_cons h')
      · exact .inr h'

theorem not_mark_infix_of_not_mem {l : List Char} (h : ',' ∉ l) : ¬ mark <:+: l :=
  fun hm => h (hm.subset List.mem_cons_self)

theorem prefix_intercalate (e : List Char) (es : List (List Char)) :
    e <+: mark.intercalate (e :: es) := by
  cases es with
  | nil => simp only [List.intercalate_singleton, List.prefix_rfl]
  | cons e' es =>
    rw [List.intercalate_cons_cons, List.append_assoc]
    exact List.prefix_append _ _

/-- a text taken apart at its marks, the first of them first -/
def pieces : List Char → List (List Char)
  | [] => [[]]
  | ',' :: ' ' :: cs => [] :: pieces cs
  | c :: cs => (pieces cs).modifyHead (c :: ·)

theorem pieces_mark (cs : List Char) : pieces (mark ++ cs) = [] :: pieces cs := by
  show pieces (',' :: ' ' :: cs) = _
  rw [pieces]

theorem pieces_cons {c : Char} {cs : List Char} (h : ¬ mark <+: c :: cs) :
    pieces (c :: cs) = (pieces cs).modifyHead (c :: ·) := by
  rw [pieces]
  rintro r rfl rfl
  exact h ⟨r, rfl⟩

theorem pieces_of_not_infix {e : List Char} (h : ¬ mark <:+: e) : pieces e = [e] := by
  induction e with
  | nil => rfl
  | cons c e ih =>
    rw [List.infix_cons_iff, not_or] at h
    rw [pieces_cons h.1, ih h.2]
    rfl

/-- The first mark is where a text ends that has none in it. -/
theorem pieces_append_mark {e : List Char} (h : ¬ mark <:+: e) (rest : List Char) :
    pieces (e ++ (mark ++ rest)) = e :: pieces rest := by
  induction e with
  | nil => exact pieces_mark rest
  | cons c e ih =>
    rw [List.infix_cons_iff, not_or] at h
    have hstart : ¬ mark <+: c :: (e ++ (mark ++ rest)) := by
      intro hm
      obtain ⟨hc, hrest⟩ := List.cons_prefix_cons.mp hm
      cases e with
      | nil => exact absurd (List.cons_prefix_cons.mp hrest).1 (by decide)
      | cons d e =>
        have hd := (List.cons_prefix_cons.mp hrest).1
        rw [← hc, ← hd] at h
        exact h.1 ⟨e, rfl⟩
    rw [List.cons_append, pieces_cons hstart, ih h.2]
    rfl

/-- **Texts without a mark in them come back one by one.** -/
theorem pieces_intercalate {es : List (List Char)} (hne : es ≠ [])
    (h : ∀ e ∈ es, ¬ mark <:+: e) : pieces (mark.intercalate es) = es := by
  induction es with
  | nil => exact absurd rfl hne
  | cons e es ih =>
    have he := h e List.mem_cons_self
    cases es with
    | nil =>
      rw [List.intercalate_singleton]
      exact pieces_of_not_infix he
    | cons e' es =>
      rw [List.intercalate_cons_cons, List.append_assoc, pieces_append_mark he,
        ih (List.cons_ne_nil e' es) fun e'' he'' => h e'' (List.mem_cons_of_mem e he'')]

end CallbackLocks
