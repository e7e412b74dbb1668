/-!
# Hexadecimal text

* `Hex.digits`        the digits of a number, lower case, no more than needed
* `Hex.upperDigits`   the same in upper case, filled up on the left with zeros to a least width
* `Hex.lower`, `Hex.upper`   these as text
* `Hex.ofBytes`       two lower case digits for every byte
-/

namespace CallbackLocks.Hex

def digits (n : Nat) : List Char := Nat.toDigits 16 n

/-- the digits of `n` in upper case, at least `width` of them -/
def upperDigits (width n : Nat) : List Char :=
  List.leftpad width '0' ((digits n).map Char.toUpper)

def byteDigits (b : UInt8) : List Char :=
  [Nat.digitChar (b.toNat / 16), Nat.digitChar (b.toNat % 16)]

def lower (n : Nat) : String := String.ofList (digits n)

/-- the upper case text of `n`, at least `width` digits wide -/
def upper (width n : Nat) : String := String.ofList (upperDigits width n)

def ofBytes (bs : List UInt8) : String := String.ofList (bs.flatMap byteDigits)

theorem length_upperDigits (width n : Nat) :
    (upperDigits width n).length = max width (digits n).length := by
  simp only [upperDigits, List.length_leftpad, List.length_map]

theorem length_flatMap_byteDigits (bs : List UInt8) :
    (bs.flatMap byteDigits).length = 2 * bs.length := by
  induction bs with
  | nil => rfl
  | cons b bs ih => simp [byteDigits, ih]; omega

end CallbackLocks.Hex
