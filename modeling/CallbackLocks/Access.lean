import CallbackLocks.World

/-!
# Single accesses

The operations of a process are made of accesses to its state.  Between two accesses of one thread
any number of accesses of others can happen; within one none can.

* `Access`           what can be done in one go
* `Access.Reply`     what is learnt from it
* `Access.perform`   its reply and its effect
* `Access.isEnabled` it can happen now; only taking the lifecycle lock ever has to wait

A call of a registry or of the host library is one access, and the trace shows it; the two calls
that ask for a seed are one, which the trace does not show, no more than the start of a modern host.
-/

namespace CallbackLocks

/-- Something that is done in one go. -/
inductive Access where
  /-- take the lock under which tables come and go -/
  | takeLifecycle
  | freeLifecycle
  | loadTable
  | publishTable (size : Nat)
  | withdrawTable
  /-- one more table has been installed; `World.generation` bounds how many there can be -/
  | countInstall
  | readGeneration
  | countLocks (r : Registry)
  | readLocking (r : Registry)
  | setLocking (r : Registry) (callback : Option LockCallback)
  | setId (r : Registry) (callback : Option IdCallback)
  /-- claim the one session, if nobody has -/
  | claim
  | unclaim
  /-- start a modern host library, which tells nothing of how that went -/
  | initHost
  /-- start a legacy host library, which may leave errors in the queue of the thread -/
  | startHost
  | loadErrorStrings
  /-- read the errors in the queue of the thread -/
  | drainErrors
  /-- have the random number generator look for a seed, and ask whether it has one -/
  | readSeeded
  | cleanAlgorithms
  | cleanExtraData
  | freeErrorStrings
  | log (line : LogLine)
deriving DecidableEq, Inhabited

namespace Access

/-- What is learnt from an access. -/
@[reducible]
def Reply : Access → Type
  | loadTable => Option Nat
  | readGeneration | countLocks _ => Nat
  | readLocking _ => Option LockCallback
  | claim | readSeeded => Bool
  | startHost => Int32
  | drainErrors => List ErrorCode
  | takeLifecycle | freeLifecycle | publishTable _ | withdrawTable | countInstall
  | setLocking _ _ | setId _ _ | unclaim | initHost | loadErrorStrings
  | cleanAlgorithms | cleanExtraData | freeErrorStrings | log _ => Unit

/-- The reply to an access by `who`, and the state after it. -/
def perform (who : Thread) : (a : Access) → World → a.Reply × World
  | takeLifecycle, w => ((), { w with lifecycle := some who })
  | freeLifecycle, w => ((), { w with lifecycle := none })
  | loadTable, w => (w.tableSize, w)
  | publishTable size, w => ((), { w with table := some (.new size) })
  | withdrawTable, w => ((), { w with table := none })
  | countInstall, w => ((), { w with generation := w.generation + 1 })
  | readGeneration, w => (w.generation, w)
  | countLocks r, w => (w.lockCount r, w.saw (.call (.countLocks r)))
  | readLocking r, w => (w.locking r, w.saw (.call (.readLocking r)))
  | setLocking r f, w =>
    ((), (w.register r f).saw (.call (.setLocking r f w.isInstalled)))
  | setId r f, w => ((), (w.registerId r f).saw (.call (.setId r f w.isInstalled)))
  | claim, w => (!w.claimed, { w with claimed := true })
  | unclaim, w => ((), { w with claimed := false })
  | initHost, w => ((), w)
  | startHost, w =>
    (w.startCode, (w.setQueue who ((w.queues who).pushAll w.startErrors)).saw
      (.call (.startHost w.startCode)))
  | loadErrorStrings, w => ((), w.saw (.call .loadErrorStrings))
  | drainErrors, w => ((w.queues who).drain.1, w.setQueue who (w.queues who).drain.2)
  | readSeeded, w => (w.seeded, w)
  | cleanAlgorithms, w => ((), w.saw (.call (.cleanAlgorithms w.isInstalled)))
  | cleanExtraData, w => ((), w.saw (.call .cleanExtraData))
  | freeErrorStrings, w => ((), w.saw (.call .freeErrorStrings))
  | log l, w => ((), w.saw (.log l))

/-- The access can happen now. -/
def isEnabled (w : World) : Access → Bool
  | takeLifecycle => w.lifecycle.isNone
  | _ => true

theorem isEnabled_iff (w : World) (a : Access) :
    a.isEnabled w = true ↔ (a = takeLifecycle → w.lifecycle = none) := by
  cases a <;> simp [isEnabled]

end Access

end CallbackLocks
