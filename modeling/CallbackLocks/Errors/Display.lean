import CallbackLocks.Errors.Code
import CallbackLocks.Text.Shown

/-!
# The text of errors

An error is written as `error:` and its code in at least eight upper case hexadecimal digits, then
the names of its library and its reason, as far as they have any, each after a colon.  A stack of
errors is the errors one after another.  Where the names are from makes no difference here.

* `ErrorNames.display`        the line of an error
* `ErrorNamen.displayStack`   the line of a stack of errors
* `ErrorNames.shown`, `ErrorNames.shownStack`   both as values with their parts
-/

namespace CallbackLocks.ErrorNames

/-- a name behind a colon; nothing for a name that is missing -/
def segment : Option String → String
  | none => ""
  | some s => ":" ++ s

def display (n : ErrorNames) (c : ErrorCode) : String :=
  "error:" ++ Hex.upper 8 c.bits.toNat ++ segment (n.library c) ++ segment (n.reason c)

def emptyStack : String := "OpenSSL error"

/-- the line of a stack of errors, the oldest first -/
def displayStack (n : ErrorNames) : List ErrorCode → String
  | [] => emptyStack
  | cs => ", ".intercalate (cs.map n.display)

def shown (n : ErrorNames) (c : ErrorCode) : Shown :=
  .record "OpensslError"
    [("code", .nat c.bits.toNat),
     ("library", .option ((n.library c).map .text)),
     ("reason", .option ((n.reason c).map .text))]

def shownStack (n : ErrorNames) (cs : List ErrorCode) : Shown :=
  .call "ErrorStack" [.list (cs.map n.shown)]

@[simp] theorem segment_none : segment none = "" := rfl

@[simp] theorem segment_some (s : String) : segment (some s) = ":" ++ s := rfl

@[simp] theorem displayStack_nil (n : ErrorNames) : n.displayStack [] = emptyStack := rfl

theorem displayStack_cons (n : ErrorNames) (c : ErrorCode) (cs : List ErrorCode) :
    n.displayStack (c :: cs) = ", ".intercalate (n.display c :: cs.map n.display) := rfl

end CallbackLocks.ErrorNames
