import CallbackLocks.Scenario.Stage

/-!
# Server names in a scenario

* `Stage.recordServerName`   a recorder is given the callback of a context; its answer is passed on
* `Stage.controlContext`     a control on a context of the host, and the status that it returns
* `Stage.setServerName`, `setServerNameArgument`   a callback registered, or its argument set
* `Stage.setHost`, `showHost`   the host name of a client
* `Stage.hello`              the first message of a client reaches a server of a context

The host library reports what it cannot do on the error queue of the main thread.
-/

namespace CallbackLocks.Stage

/-- the error queue of the main thread changes -/
def onErrors (s : Stage) (f : ErrorQueue → ErrorQueue) : Stage :=
  { s with world := s.world.setQueue .main (f (s.world.queues .main)) }

/-- a recorder is given a callback -/
def recordServerName (s : Stage) (recorder : Nat) (context : UInt64) (callback : Option Nat) :
    Answer × Stage :=
  match s.statuses[recorder]? with
  | none => (.badStep, s)
  | some code => (.status code, s.saw (.setServerName recorder context callback))

/-- One more context.  The host library tries ciphers that it may not have, and withdraws what it
reports of them.  What it reports of keys that it cannot draw without a seed stays. -/
def newContext (s : Stage) : Answer × Stage :=
  let reports := if s.world.seeded then [] else unkeyedContext
  (.context s.serverNames.contexts.size,
    { s with serverNames := s.serverNames.newContext }.onErrors
      fun q => q.pushWithdrawn.pushAll reports)

/-- Something is asked of a context, which has to be there. -/
def controlContext (s : Stage) (context : Nat) (f : ServerNames → Int64 × ServerNames) :
    Answer × Stage :=
  if context < s.serverNames.contexts.size then
    let (status, names) := f s.serverNames
    (.status status, { s with serverNames := names })
  else (.badStep, s)

def setServerName (s : Stage) (context : Nat) (entry : Entry) (f : Option Nat) : Answer × Stage :=
  s.controlContext context fun names => entry.register names context f

def setServerNameArgument (s : Stage) (context : Nat) (x : UInt64) : Answer × Stage :=
  s.controlContext context fun names => names.setArgument context x

def newClient (s : Stage) (context : Nat) : Answer × Stage :=
  if context < s.serverNames.contexts.size then
    (.client s.serverNames.clients.size, { s with serverNames := s.serverNames.newClient })
  else (.badStep, s)

/-- A client is given a host name, and keeps it if it can be sent.  The host library reports one
that cannot. -/
def setHost (s : Stage) (client : Nat) (bytes : List UInt8) : Answer × Stage :=
  if client < s.serverNames.clients.size then
    let s := { s with serverNames := s.serverNames.setHost client bytes }
    if isHostName bytes then (.status 1, s)
    else (.status 0, s.onErrors (·.push unsendableHostName))
  else (.badStep, s)

def showHost (s : Stage) (client : Nat) : Answer × Stage :=
  match s.serverNames.clients[client]? with
  | none => (.badStep, s)
  | some name => (.host name, s)

/-- The first message of a client reaches a server of a context.  The server begins with an empty
error queue.  A client that has no random numbers sends nothing. -/
def hello (s : Stage) (context : Nat) (host : Option (List UInt8)) : Answer × Stage :=
  match s.serverNames.contexts[context]? with
  | none => (.badStep, s)
  | some c =>
    let s := s.onErrors fun _ => .empty
    match if s.world.seeded then ServerNames.hello c host else none with
    | none => (.done, s)
    | some f => (.done, s.saw f)

end CallbackLocks.Stage
