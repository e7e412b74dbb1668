/-!
# Error codes

* `ErrorCode`          a word that packs the number of a library and the number of a reason; zero
                       is no error
* `ErrorCode.pack`     the code of a library and a reason, each cut to its field
* `ErrorCode.isSystem`, `libraryNumber`, `reasonNumber`   what a code says
* `ErrorNames`         the names of what codes say, wherever they are from

Errors of the operating system have a bit of their own, and the whole word below that bit is the
number that the system gave.  They count as errors of the library `systemLibrary`.
-/

namespace CallbackLocks

/-- A code of an error queue. -/
structure ErrorCode where
  bits : UInt64
deriving DecidableEq, Inhabited

namespace ErrorCode

/-- the number of the operating system among the libraries -/
def systemLibrary : Nat := 2

/-- the bit that marks an error of the operating system -/
def systemBit : Nat := 31

/-- how many numbers the system has for its errors -/
def systemSpan : Nat := 0x80000000

/-- how many numbers there are for reasons -/
def reasonSpan : Nat := 0x800000

/-- how many numbers there are for libraries -/
def librarySpan : Nat := 0x100

/-- The code of a reason given by a library. -/
def pack (library reason : Int) : ErrorCode :=
  if library = systemLibrary then ⟨.ofNat (systemSpan + (reason % systemSpan).toNat)⟩
  else ⟨.ofNat ((library % librarySpan).toNat * reasonSpan + (reason % reasonSpan).toNat)⟩

def isZero (c : ErrorCode) : Bool := c.bits == 0

def isSystem (c : ErrorCode) : Bool := c.bits.toNat.testBit systemBit

def libraryNumber (c : ErrorCode) : Nat :=
  if c.isSystem then systemLibrary else c.bits.toNat / reasonSpan % librarySpan

/-- the number of the reason; the system's own numbers are not reasons -/
def reasonNumber (c : ErrorCode) : Option Nat :=
  if c.isSystem then none else some (c.bits.toNat % reasonSpan)

theorem ext {c d : ErrorCode} (h : c.bits.toNat = d.bits.toNat) : c = d := by
  cases c; cases d; simpa using UInt64.toNat_inj.1 h

@[simp] theorem isZero_iff (c : ErrorCode) : c.isZero = true ↔ c = ⟨0⟩ := by
  cases c; simp [isZero]

end ErrorCode

/-- The names of the library and of the reason that a code stands for, as far as they have any. -/
structure ErrorNames where
  library : ErrorCode → Option String
  reason : ErrorCode → Option String

end CallbackLocks
