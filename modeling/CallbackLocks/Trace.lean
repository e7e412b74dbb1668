import CallbackLocks.Callback
import CallbackLocks.Text.Hex

/-!
# What an observer sees

* `Call`             a call that leaves the lock table's side: to a registry, to the host library's
                     lifecycle, or to a callback of another party
* `LogLine`          a line of the log
* `Event`            one of the two
* `Call.text`, `LogLine.text`   the line that is written
* `calls`, `logs`    the lines of a list of events, in order
* `sorted`           lines in the order of their text, for when threads race

A call that registers or removes something tells whether a lock table was installed at that time.
A modern host does not show the calls that it gets as a registry.
-/

namespace CallbackLocks

/-! ## calls -/

/-- A call that leaves the lock table's side. -/
inductive Call where
  | countLocks (r : Registry)
  | readLocking (r : Registry)
  | setLocking (r : Registry) (callback : Option LockCallback) (installed : Bool)
  | setId (r : Registry) (callback : Option IdCallback) (installed : Bool)
  /-- a recorder is given the server name callback of a context -/
  | setServerName (recorder : Nat) (context : UInt64) (callback : Option Nat)
  /-- a foreign locking callback runs -/
  | foreignLock (number : Nat) (mode index line : Int32)
  /-- a server name callback runs, for a host name that a client sent -/
  | serverName (callback : Nat) (host : Option (List UInt8)) (argument : UInt64)
  | startHost (answer : Int32)
  | loadErrorStrings
  | cleanAlgorithms (installed : Bool)
  | cleanExtraData
  | freeErrorStrings
deriving DecidableEq, Inhabited

namespace Call

/-- whether a lock table was installed at the time of a call -/
def presence (installed : Bool) : String := if installed then "installed" else "absent"

def serverNameCallback : Option Nat → String
  | none => "none"
  | some k => s!"cb{k}"

def hostName : Option (List UInt8) → String
  | none => "none"
  | some bytes => Hex.ofBytes bytes

def text : Call → String
  | countLocks (.recorder i) => s!"r{i}.num_locks"
  | countLocks .host => "CRYPTO_num_locks"
  | readLocking (.recorder i) => s!"r{i}.locking_callback"
  | readLocking .host => "CRYPTO_get_locking_callback"
  | setLocking (.recorder i) f on => s!"r{i}.set_locking({lockCallbackName f}) {presence on}"
  | setLocking .host f on => s!"CRYPTO_set_locking_callback({lockCallbackName f}) {presence on}"
  | setId (.recorder i) f on => s!"r{i}.set_id({idCallbackName f}) {presence on}"
  | setId .host f on => s!"CRYPTO_set_id_callback({idCallbackName f}) {presence on}"
  | setServerName i ctx f => s!"r{i}.sni(0x{Hex.lower ctx.toNat},{serverNameCallback f})"
  | foreignLock 0 mode n line => s!"foreign0({mode},{n},{line})"
  | foreignLock k mode n line => s!"foreign{k}:({mode},{n},{line})"
  | serverName k host arg => s!"cb{k}(host={hostName host},arg={arg})"
  | startHost _ => "SSL_library_init"
  | loadErrorStrings => "SSL_load_error_strings"
  | cleanAlgorithms on => s!"EVP_cleanup {presence on}"
  | cleanExtraData => "CRYPTO_cleanup_all_ex_data"
  | freeErrorStrings => "ERR_free_strings"

/-- the registry that gets the call, for a call to a registry's slots -/
def addressee : Call → Option Registry
  | countLocks r | readLocking r | setLocking r _ _ | setId r _ _ => some r
  | _ => none

/-- The call shows: all do, but for those to the slots of a modern host. -/
def isShown (e : Edition) (c : Call) : Bool :=
  !(e == .modern && c.addressee == some .host)

end Call

/-! ## log lines -/

/-- A line of the log. -/
inductive LogLine where
  | tableInstalled (size : Nat)
  | tableRemoved (size : Nat)
  /-- nothing was installed: there is a table -/
  | tablePresent
  /-- nothing was installed: the registry has a locking callback -/
  | callbackPresent
  /-- nothing was removed: there is no table -/
  | nothingInstalled
  /-- nothing was removed: the table of that generation is gone -/
  | tableGone (generation : Nat)
  | seeded
  | begun
  | ended
deriving DecidableEq, Inhabited

namespace LogLine

def level : LogLine → String
  | tableInstalled _ | tableRemoved _ | begun | ended => "INFO"
  | tablePresent | callbackPresent | nothingInstalled | tableGone _ | seeded => "DEBUG"

def message : LogLine → String
  | tableInstalled n => s!"installed locking callbacks with {n} locks"
  | tableRemoved n => s!"removed locking callbacks and {n} locks"
  | tablePresent => "lock table already installed"
  | callbackPresent => "a locking callback is already registered, leaving it in place"
  | nothingInstalled => "no lock table installed, nothing to tear down"
  | tableGone g => s!"lock table {g} already removed, leaving the current one in place"
  | seeded => "PRNG seeded"
  | begun => "OpenSSL initialized"
  | ended => "OpenSSL shut down"

def text (l : LogLine) : String := l.level ++ " " ++ l.message

end LogLine

/-! ## events -/

/-- Something an observer sees. -/
inductive Event where
  | call (c : Call)
  | log (l : LogLine)
deriving DecidableEq, Inhabited

namespace Event

def callText? (e : Edition) : Event → Option String
  | call c => if c.isShown e then some c.text else none
  | log _ => none

def logText? : Event → Option String
  | call _ => none
  | log l => some l.text

end Event

def calls (e : Edition) (events : List Event) : List String := events.filterMap (Event.callText? e)

def logs (events : List Event) : List String := events.filterMap Event.logText?

/-- lines in the order of their text -/
def sorted (lines : List String) : List String := lines.mergeSort fun a b => decide (a ≤ b)

end CallbackLocks
