import CallbackLocks.Scenario.Stage

/-!
# Tables, handles and registries in a scenario

* `Stage.newHandle`      a handle under a name; an older handle of that name goes away afterwards
* `Stage.showHandle`, `dropHandle`   a handle looked at, or given up in one of two ways
* `Stage.query`          what a registry answers
* `Stage.constants`      the constants of the interface
-/

namespace CallbackLocks.Stage

open Program (access)

/-- A new handle is shown, and then takes the place of an older one of its name. -/
def newHandle (s : Stage) (r : Registry) (name : String) : Answer × Stage :=
  if s.hasRegistry r then
    s.act (do
      let h ← Handle.install r
      let v ← h.view
      match s.handles.find? name with
      | none => return (h, v)
      | some older => do older.drop; return (h, v))
      fun (h, v) s => (.handle v, { s with handles := s.handles.put name h })
  else (.badStep, s)

def showHandle (s : Stage) (name : String) : Answer × Stage :=
  match s.handles.find? name with
  | none => (.badStep, s)
  | some h => s.act h.view fun v s => (.handle v, s)

/-- a handle given up, by dropping it or otherwise -/
def endHandle (s : Stage) (name : String) (way : Handle → Program Unit) : Answer × Stage :=
  match s.handles.find? name with
  | none => (.badStep, s)
  | some h => { s with handles := s.handles.erase name }.does (way h)

/-- a recorder reports another number of locks -/
def report (s : Stage) (recorder locks : Nat) : Answer × Stage :=
  if s.hasRegistry (.recorder recorder) then
    (.done, { s with world := s.world.setReported recorder locks })
  else (.badStep, s)

/-- the host reports another number of locks; a modern one cannot -/
def reportHost (s : Stage) (locks : Int32) : Answer × Stage :=
  match s.world.edition with
  | .modern => (.badStep, s)
  | .legacy => (.done, { s with world.hostLocks := locks })

def query (s : Stage) (r : Registry) : Answer × Stage :=
  if s.hasRegistry r then
    s.act (do
      let locks ← access (.countLocks r)
      let locking ← access (.readLocking r)
      return (locks, locking))
      fun (locks, locking) s => (.slots locks locking, s)
  else (.badStep, s)

/-- the command is one of a library that is linked to a modern host -/
def onModern (s : Stage) (f : Stage → Answer × Stage) : Answer × Stage :=
  match s.world.edition with
  | .modern => f s
  | .legacy => (.badStep, s)

/-- what a server name callback may answer -/
def serverNameAnswers : List (String × Int) :=
  [("OK", 0), ("ALERT_WARNING", 1), ("ALERT_FATAL", 2), ("NOACK", 3)]

/-- the bits of a mode -/
def modeBits : List (String × Int) :=
  [("CRYPTO_LOCK", Mode.lock.toInt), ("CRYPTO_UNLOCK", Mode.unlock.toInt),
   ("CRYPTO_READ", Mode.read.toInt), ("CRYPTO_WRITE", Mode.write.toInt)]

/-- the constants of the interface, and how the host is shown -/
def constants (s : Stage) : Answer × Stage :=
  (.constants (modeBits ++ serverNameAnswers) "OpenSsl", s)

end CallbackLocks.Stage
