import CallbackLocks.Callback
import CallbackLocks.LockTable

/-!
# The dispatcher

One callback serves every lock: a call brings a mode and the number of a lock, both 32-bit signed.

* `dispatchTo place`   the call, where a lock that is given back goes to the thread at `place` of
                       its line
* `dispatch`           the call, where it goes to the thread that has waited longest

A missing table is the first thing noticed, then a negative number, then what the table says.
-/

namespace CallbackLocks

/-- A dispatcher call by `who`, who serves the thread at `place` of a line. -/
def dispatchTo (place : Nat) (table : Option LockTable) (who : Thread) (mode index : Int32) :
    Except Fault (Outcome × LockTable) :=
  match table with
  | none => .error (.noTable index)
  | some t =>
    if index < 0 then .error (.negativeIndex index)
    else if Mode.takes mode then t.acquire who index.toNatClampNeg
    else t.releaseTo place index.toNatClampNeg

def dispatch (table : Option LockTable) (who : Thread) (mode index : Int32) :
    Except Fault (Outcome × LockTable) :=
  dispatchTo 0 table who mode index

theorem dispatch_none (who : Thread) (mode index : Int32) :
    dispatch none who mode index = .error (.noTable index) := rfl

theorem dispatch_of_neg (t : LockTable) (who : Thread) (mode : Int32) {index : Int32}
    (h : index < 0) : dispatch (some t) who mode index = .error (.negativeIndex index) := by
  simp [dispatch, dispatchTo, h]

theorem dispatch_of_takes (t : LockTable) (who : Thread) {mode index : Int32}
    (h : ¬ index < 0) (hm : Mode.takes mode = true) :
    dispatch (some t) who mode index = t.acquire who index.toNatClampNeg := by
  simp [dispatch, dispatchTo, h, hm]

theorem dispatch_of_not_takes (t : LockTable) (who : Thread) {mode index : Int32}
    (h : ¬ index < 0) (hm : Mode.takes mode = false) :
    dispatch (some t) who mode index = t.release index.toNatClampNeg := by
  simp [dispatch, dispatchTo, LockTable.release, h, hm]

end CallbackLocks
