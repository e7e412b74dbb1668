import CallbackLocks.Text.Hex
import CallbackLocks.Text.Marks
import CallbackLocks.Text.Unassigned

/-!
# Quoted text

Text in quotes shows every character that a reader could not see or tell apart by its code.

* `Quoted.isHidden`    the characters that are shown by code: controls, blanks other than the space,
                       format characters, fillers, marks, and those that are not assigned
* `Quoted.escape`      one character as it stands between quotes
* `quoted`             the whole text, with its quotes
-/

namespace CallbackLocks

/-! ## characters that are shown by their code -/

namespace CodeRanges

def controls : CodeRanges := ⟨[(0x0, 0x1F), (0x7F, 0x9F)], by decide⟩

/-- blanks other than the space, and the two separators of lines and paragraphs -/
def blanks : CodeRanges where
  ranges :=
    [(0xA0, 0xA0), (0x1680, 0x1680), (0x2000, 0x200A), (0x2028, 0x2029), (0x202F, 0x202F),
     (0x205F, 0x205F), (0x3000, 0x3000)]
  ascending := by decide

/-- characters that only direct the layout of others -/
def formats : CodeRanges where
  ranges :=
    [(0xAD, 0xAD), (0x600, 0x605), (0x61C, 0x61C), (0x6DD, 0x6DD), (0x70F, 0x70F),
     (0x890, 0x891), (0x8E2, 0x8E2), (0x180E, 0x180E), (0x200B, 0x200F), (0x202A, 0x202E),
     (0x2060, 0x2064), (0x2066, 0x206F), (0xFEFF, 0xFEFF), (0xFFF9, 0xFFFB),
     (0x110BD, 0x110BD), (0x110CD, 0x110CD), (0x13430, 0x1343F), (0x1BCA0, 0x1BCA3),
     (0x1D173, 0x1D17A), (0xE0001, 0xE0001), (0xE0020, 0xE007F)]
  ascending := by decide

/-- letters that fill the place of another one and are not drawn -/
def fillers : CodeRanges :=
  ⟨[(0x115F, 0x1160), (0x3164, 0x3164), (0xFFA0, 0xFFA0)], by decide⟩

end CodeRanges

namespace Quoted

open CodeRanges

/-- the character is shown by its code -/
def isHidden (c : Char) : Bool :=
  controls.covers c.toNat || blanks.covers c.toNat || formats.covers c.toNat
    || fillers.covers c.toNat || marks.covers c.toNat || unassigned.covers c.toNat

/-! ## quoting -/

/-- One character between quotes. -/
def escape (c : Char) : List Char :=
  if c = '"' then ['\\', '"']
  else if c = '\\' then ['\\', '\\']
  else if c = '\t' then ['\\', 't']
  else if c = '\n' then ['\\', 'n']
  else if c = '\r' then ['\\', 'r']
  else if c = '\x00' then ['\\', '0']
  else if isHidden c then ['\\', 'u', '\x7b'] ++ Hex.digits c.toNat ++ ['\x7d']
  else [c]

/-- every blank of ASCII other than the space is hidden -/
theorem isHidden_of_isWhitespace {c : Char} (h : c.isWhitespace = true) (hs : c ≠ ' ') :
    isHidden c = true := by
  simp only [Char.isWhitespace, Bool.or_eq_true, decide_eq_true_eq] at h
  obtain ((h | h) | h) | h := h
  · exact absurd h hs
  all_goals subst h; decide

/-- every other character of ASCII is shown as it is, but for the controls -/
theorem isHidden_of_ascii {c : Char} (h : 0x20 ≤ c.toNat) (h' : c.toNat < 0x7F) :
    isHidden c = false := by
  have hc : controls.covers c.toNat = false := by
    simp only [controls, covers, search, Bool.and_eq_false_iff, Bool.or_eq_false_iff,
      decide_eq_false_iff_not]
    omega
  simp only [isHidden, hc, Bool.false_or, Bool.or_eq_false_iff]
  exact ⟨⟨⟨⟨covers_of_lt (show isAscending 0xA0 _ = true by decide +kernel) (by omega),
    covers_of_lt (show isAscending 0xA0 _ = true by decide +kernel) (by omega)⟩,
    covers_of_lt (show isAscending 0xA0 _ = true by decide +kernel) (by omega)⟩,
    covers_of_lt (show isAscending 0xA0 _ = true by decide +kernel) (by omega)⟩,
    covers_of_lt (show isAscending 0xA0 _ = true by decide +kernel) (by omega)⟩

end Quoted

/-- `s` in quotes -/
def quoted (s : String) : String :=
  String.ofList ('"' :: s.toList.flatMap Quoted.escape ++ ['"'])

end CallbackLocks
