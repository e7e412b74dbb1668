import CallbackLocks.World

/-!
# Server names

A client names the host that it wants to talk to in its first message.  A server asks a callback of
its context about that name, and hands it the argument that the context keeps for it.

* `Control`          what the host library lets be set in a context: the callback, or its argument
* `Control.ofCallback?`, `ofPointer?`   each is asked for by a number of its own
* `Context`          a context with its two registers
* `isHostName`       a name that can be sent: between 1 and 255 bytes
* `ServerNames`      the contexts and clients of a process
* `ServerNames.handCallback`, `handPointer`   a control is asked for by number
* `ServerNames.registerAtHost`, `registerPlain`, `registerExported`   the ways to register a
                     callback, each by way of the one before
* `Entry`            which of them is taken
* `ServerNames.hello`   what a client's first message brings about
-/

namespace CallbackLocks

/-! ## contexts -/

/-- What can be set in a context. -/
inductive Control where
  | callback (f : Option Nat)
  | argument (x : UInt64)
deriving DecidableEq, Inhabited

namespace Control

/-- the number under which a context is handed a callback -/
def callbackNumber : Int32 := 53

/-- the number under which a context is handed the argument of its callback -/
def argumentNumber : Int32 := 54

/-- what it means that a context is handed a callback under a number -/
def ofCallback? (number : Int32) (f : Option Nat) : Option Control :=
  if number = callbackNumber then some (.callback f) else none

/-- what it means that a context is handed a pointer under a number -/
def ofPointer? (number : Int32) (x : UInt64) : Option Control :=
  if number = argumentNumber then some (.argument x) else none

end Control

/-- A context with its server name callback and the argument of that. -/
structure Context where
  callback : Option Nat
  argument : UInt64
deriving DecidableEq, Inhabited

namespace Context

def fresh : Context := ⟨none, 0⟩

def apply (c : Context) : Control → Context
  | .callback f => { c with callback := f }
  | .argument x => { c with argument := x }

end Context

/-! ## host names -/

/-- A host name of that many bytes can be sent. -/
def isHostName (bytes : List UInt8) : Bool := 1 ≤ bytes.length && bytes.length ≤ 255

/-- What the host library reports when it makes a context and has no random numbers for it: two keys
that could not be drawn, and the context that would have kept them. -/
def unkeyedContext : List ErrorCode := [.pack 36 101, .pack 36 101, .pack 20 524324]

/-- what the host library reports of a host name that cannot be sent -/
def unsendableHostName : ErrorCode := .pack 20 319

/-- the name that a client keeps when it is given `bytes` -/
def hostName? (bytes : List UInt8) : Option (List UInt8) :=
  if isHostName bytes then some bytes else none

/-! ## contexts and clients of a process -/

/-- The contexts of a process, and the host names of its clients. -/
structure ServerNames where
  contexts : Array Context
  clients : Array (Option (List UInt8))
deriving DecidableEq, Inhabited

namespace ServerNames

def empty : ServerNames := ⟨#[], #[]⟩

def newContext (s : ServerNames) : ServerNames :=
  { s with contexts := s.contexts.push .fresh }

def newClient (s : ServerNames) : ServerNames :=
  { s with clients := s.clients.push none }

/-- a control on context `i` -/
def control (s : ServerNames) (i : Nat) (c : Control) : ServerNames :=
  { s with contexts := s.contexts.modify i (·.apply c) }

/-- The status of a control that was asked for, and what comes of it.  A number that means nothing
fails. -/
def answer (s : ServerNames) (i : Nat) : Option Control → Int64 × ServerNames
  | none => (0, s)
  | some c => (1, s.control i c)

/-- context `i` is handed a callback -/
def handCallback (s : ServerNames) (i : Nat) (number : Int32) (f : Option Nat) :
    Int64 × ServerNames := s.answer i (Control.ofCallback? number f)

/-- context `i` is handed a pointer -/
def handPointer (s : ServerNames) (i : Nat) (number : Int32) (x : UInt64) :
    Int64 × ServerNames := s.answer i (Control.ofPointer? number x)

/-- what the registry of the host does with a callback -/
def registerAtHost (s : ServerNames) (i : Nat) (f : Option Nat) : Int64 × ServerNames :=
  s.handCallback i Control.callbackNumber f

/-- the plain function: the registry is that of the host -/
def registerPlain (s : ServerNames) (i : Nat) (f : Option Nat) : Int64 × ServerNames :=
  s.registerAtHost i f

/-- the function that other languages link to -/
def registerExported (s : ServerNames) (i : Nat) (f : Option Nat) : Int64 × ServerNames :=
  s.registerPlain i f

/-- the argument that the callback of context `i` is given from now on -/
def setArgument (s : ServerNames) (i : Nat) (x : UInt64) : Int64 × ServerNames :=
  s.handPointer i Control.argumentNumber x

/-- Client `i` is given a host name; one that cannot be sent clears it. -/
def setHost (s : ServerNames) (i : Nat) (bytes : List UInt8) : ServerNames :=
  { s with clients := s.clients.setIfInBounds i (hostName? bytes) }

/-- The callback that runs when a client's first message reaches a server of context `c`. -/
def hello (c : Context) (host : Option (List UInt8)) : Option Call :=
  c.callback.map fun f => .serverName f (host.bind hostName?) c.argument

@[simp] theorem registerAtHost_eq (s : ServerNames) (i : Nat) (f : Option Nat) :
    s.registerAtHost i f = (1, s.control i (.callback f)) := rfl

@[simp] theorem setArgument_eq (s : ServerNames) (i : Nat) (x : UInt64) :
    s.setArgument i x = (1, s.control i (.argument x)) := rfl

theorem getElem?_control (s : ServerNames) (i j : Nat) (c : Control) :
    (s.control i c).contexts[j]? =
      if i = j then s.contexts[j]?.map (·.apply c) else s.contexts[j]? := by
  simp [control, Array.getElem?_modify]

end ServerNames

/-- The ways to register a callback with the host library. -/
inductive Entry where
  /-- the plain function -/
  | plain
  /-- the function that is told the registry -/
  | withRegistry
  /-- the function that other languages link to -/
  | exported
deriving DecidableEq, Inhabited

/-- a callback registered for context `i` that way -/
def Entry.register (s : ServerNames) (i : Nat) (f : Option Nat) : Entry → Int64 × ServerNames
  | plain => s.registerPlain i f
  | withRegistry => s.registerAtHost i f
  | exported => s.registerExported i f

/-- All ways come to the same control. -/
theorem Entry.register_eq (s : ServerNames) (i : Nat) (f : Option Nat) (e : Entry) :
    e.register s i f = (1, s.control i (.callback f)) := by
  cases e <;> rfl

end CallbackLocks
