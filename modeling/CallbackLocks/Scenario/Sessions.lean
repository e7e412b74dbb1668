import CallbackLocks.Scenario.Stage

/-!
# Sessions in a scenario

* `Stage.beginSession`    a session under a name, or why there is none
* `Stage.showSession`     a session looked at
* `Stage.finishSession`   a session ended
* `Stage.setStart`        what a legacy host does when it is started from now on
-/

namespace CallbackLocks.Stage

/-- A session under a name, or why there is none. -/
def beginSession (s : Stage) (name : String) : Answer × Stage :=
  s.act (Session.begin s.world.edition) fun
    | .ok x, s => (.done, { s with sessions := s.sessions.put name x })
    | .error f, s => (.failure (s.strings.names.failureView f), s)

def showSession (s : Stage) (name : String) : Answer × Stage :=
  match s.sessions.find? name with
  | none => (.badStep, s)
  | some x =>
    s.act (do
      let shown ← x.describe
      let view ← x.handle.view
      return (shown, view))
      fun (shown, view) s => (.session shown view, s)

def finishSession (s : Stage) (name : String) : Answer × Stage :=
  match s.sessions.find? name with
  | none => (.badStep, s)
  | some x => { s with sessions := s.sessions.erase name }.does (x.finish s.world.edition)

/-- what a legacy host does when it is started from now on -/
def setStart (s : Stage) (code : Int32) (errors : List ErrorCode) : Answer × Stage :=
  match s.world.edition with
  | .modern => (.badStep, s)
  | .legacy =>
    (.done, { s with world := { s.world with startCode := code, startErrors := errors } })

end CallbackLocks.Stage
