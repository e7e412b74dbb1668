import CallbackLocks.Errors.Display

/-!
# Why a session could not be begun

* `Failure`              the three causes
* `Failure.name`         one word for the cause
* `Failure.message`      the sentence for a user
* `Failure.shown`        the cause with its parts
-/

namespace CallbackLocks

/-- Why a session could not be begun. -/
inductive Failure where
  /-- another session is alive -/
  | alreadyInitialized
  /-- the host library refused; its errors tell why -/
  | refused (errors : List ErrorCode)
  /-- the random number generator has no seed -/
  | noEntropy
deriving DecidableEq, Inhabited

namespace Failure

def name : Failure → String
  | alreadyInitialized => "AlreadyInitialized"
  | refused _ => "Init"
  | noEntropy => "Entropy"

def message (n : ErrorNames) : Failure → String
  | alreadyInitialized => "OpenSSL is already initialized"
  | refused errors => "OpenSSL initialization failed: " ++ n.displayStack errors
  | noEntropy => "the OpenSSL PRNG could not be seeded"

def shown (n : ErrorNames) : Failure → Shown
  | refused errors => .call "Init" [n.shownStack errors]
  | f => .word f.name

/-- A failure is the whole story: it has no deeper cause to ask for. -/
def hasSource (_ : Failure) : Bool := false

end Failure

end CallbackLocks
