/-!
# Threads

* `Thread`   who makes a call: the main thread, a numbered worker that lives to the end of a
             scenario, or a racer, one of several short-lived threads that all do the same.

A thread is only ever told apart from the others, so equality is all that is needed of it.
-/

namespace CallbackLocks

/-- A thread of the process that calls into the lock table. -/
inductive Thread where
  /-- the thread that runs a scenario -/
  | main
  /-- a thread that is created at first use and then stays -/
  | worker (number : Nat)
  /-- a thread that lives for one race only -/
  | racer (number : Nat)
deriving DecidableEq, Inhabited

end CallbackLocks
