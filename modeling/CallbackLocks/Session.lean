import CallbackLocks.Errors.Failure
import CallbackLocks.Handle

/-!
# Sessions

A session brings the host library up for use by several threads.  At most one is alive at a time.

* `Session`          a live session, with the handle of its locking callbacks
* `Session.start`    the host library is started
* `Session.cleanUp`  the host library drops what it loaded
* `Session.bringUp`  start, install, look for a seed; what was set up is undone if there is none
* `Session.begin`    the claim, then the bring-up; a failure gives the claim back
* `Session.finish`   clean-up, the callbacks, the claim
-/

namespace CallbackLocks

open Program (access)

structure Session where
  handle : Handle
deriving DecidableEq, Inhabited

namespace Session

/-- The host library is started.  A legacy one answers 1 when that went well. -/
def start : Edition → Program (Except Failure Unit)
  | .modern => do
    access .initHost
    return .ok ()
  | .legacy => do
    let code ← access .startHost
    if code = 1 then
      access .loadErrorStrings
      return .ok ()
    else
      let errors ← access .drainErrors
      return .error (.refused errors)

/-- The host library drops what it loaded; a modern one does so by itself. -/
def cleanUp : Edition → Program Unit
  | .modern => return ()
  | .legacy => do
    access .cleanAlgorithms
    access .cleanExtraData
    access .freeErrorStrings

/-- The random number generator has to have a seed. -/
def seed : Program (Except Failure Unit) := do
  if ← access .readSeeded then
    Lifecycle.log .seeded
    return .ok ()
  else return .error .noEntropy

/-- Everything that a session needs, or nothing and why. -/
def bringUp (e : Edition) : Program (Except Failure Handle) := do
  match ← start e with
  | .error f => return .error f
  | .ok () =>
    let handle ← Handle.install .host
    match ← seed with
    | .ok () => return .ok handle
    | .error f =>
      cleanUp e
      handle.drop
      return .error f

/-- A new session, or why there is none. -/
def begin (e : Edition) : Program (Except Failure Session) := do
  if ← access .claim then
    match ← bringUp e with
    | .ok handle =>
      Lifecycle.log .begun
      return .ok ⟨handle⟩
    | .error f =>
      access .unclaim
      return .error f
  else return .error .alreadyInitialized

def finish (e : Edition) (s : Session) : Program Unit := do
  cleanUp e
  let handle ← s.handle.release
  access .unclaim
  Lifecycle.log .ended
  handle.drop

def describe (s : Session) : Program Shown := do
  let handle ← s.handle.describe
  return .record "Library" [("threading", handle)]

end Session

end CallbackLocks
