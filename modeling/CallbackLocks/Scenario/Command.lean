import CallbackLocks.Callback
import CallbackLocks.Errors.Code
import CallbackLocks.Race
import CallbackLocks.ServerName

/-!
# The commands of a scenario

A scenario is a list of commands, each of which does one thing to the process.  Handles, sessions
and errors that a command leaves behind are kept under names, so that later ones can refer to them.

* `Via`              how a callback is reached: the one of this library, or what a registry holds
* `Command`          one command
* `Command.runsWhileWaiting`   it is possible while a thread waits for a lock
-/

namespace CallbackLocks

/-- How a callback is reached. -/
inductive Via where
  | direct
  | registry (r : Registry)
deriving DecidableEq, Inhabited

/-- One thing done to the process. -/
inductive Command where
  /-- no command at all -/
  | unknown
  /-- a call, or a look at a handle, that does not say of what -/
  | misnamed
  /-- nothing but a look at the state -/
  | look
  /-- the constants of the interface -/
  | constants
  -- tables and handles
  /-- a plain one is at the host, whichever registry it names -/
  | install (r : Registry) (plain : Bool)
  | teardown (r : Registry) (plain : Bool)
  | exportedInstall
  | exportedTeardown
  | exportedIsInstalled
  | newHandle (r : Registry) (name : String)
  | showHandle (name : String)
  | dropHandle (name : String)
  | uninstallHandle (name : String)
  -- registries
  | report (recorder : Nat) (locks : Nat)
  | reportHost (locks : Int32)
  | setLocking (r : Registry) (callback : Option LockCallback)
  | setId (r : Registry) (callback : Option IdCallback)
  | query (r : Registry)
  -- callbacks
  | call (worker : Nat) (via : Via) (mode index line : Int32)
  | threadId (worker : Nat) (via : Via)
  | contend (via : Via) (threads rounds : Nat) (index : Int32)
  | race (kind : RaceKind) (r : Registry) (threads : Nat)
  -- sessions
  | setSeeded (seeded : Bool)
  | setStart (code : Int32) (errors : List ErrorCode)
  | beginSession (name : String)
  | showSession (name : String)
  | finishSession (name : String)
  -- errors
  | push (worker : Nat) (code : ErrorCode) (times : Nat)
  | load (library reason : Nat) (bytes : List UInt8)
  | pop (worker : Nat) (name : Option String)
  | drain (worker : Nat) (name : Option String)
  | emptyStack (name : Option String)
  | showError (name : String)
  | showStack (name : String)
  | compareErrors (a b : String)
  | compareStacks (a b : String)
  | showAlreadyInitialized
  | showRefused (stack : String)
  | showNoEntropy
  -- server names
  | recordServerName (recorder : Nat) (context : UInt64) (callback : Option Nat)
  | newContext
  | setServerName (context : Nat) (entry : Entry) (callback : Option Nat)
  | setServerNameArgument (context : Nat) (argument : UInt64)
  | newClient (context : Nat)
  | setHost (client : Nat) (bytes : List UInt8)
  | showHost (client : Nat)
  | hello (context : Nat) (host : Option (List UInt8))
deriving Inhabited

namespace Command

/-- The command is possible while a thread waits for a lock. -/
def runsWhileWaiting : Command → Bool
  | look | misnamed | showHandle _ | call .. | threadId .. => true
  | _ => false

/-- The threads of the command race, so that what is seen of them has no order. -/
def isRace : Command → Bool
  | race .. => true
  | _ => false

end Command

end CallbackLocks
