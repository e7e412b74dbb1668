import CallbackLocks.Scenario.Calls
import CallbackLocks.Scenario.Errors
import CallbackLocks.Scenario.Registration
import CallbackLocks.Scenario.ServerNames
import CallbackLocks.Scenario.Sessions

/-!
# Running a scenario

* `Stage.perform`    what one command answers, and the stage after it
* `Stage.step`       the same with a look at what was seen and how the state is; while a thread
                     waits, most commands do nothing
* `Stage.run`        one command after another, up to a fault
-/

namespace CallbackLocks.Stage

open Program (access)

/-- What a command answers, and the stage after it. -/
def perform (s : Stage) : Command → Except Fault (Answer × Stage)
  | .call worker via mode index line => s.call worker via mode index line
  | .contend via threads rounds index => s.contend via threads rounds index
  | .unknown | .misnamed => .ok (.badStep, s)
  | .look => .ok (.done, s)
  | .constants => .ok s.constants
  | .install r plain => .ok (s.doesAt r fun r => do
      let _ ← Lifecycle.install (if plain then .host else r)
      return ())
  | .teardown r plain => .ok (s.doesAt r fun r => Lifecycle.teardown (if plain then .host else r))
  | .exportedInstall =>
    .ok (s.onModern fun s => s.does do let _ ← Lifecycle.install .host; return ())
  | .exportedTeardown => .ok (s.onModern fun s => s.does (Lifecycle.teardown .host))
  | .exportedIsInstalled =>
    .ok (s.onModern fun s => s.act Lifecycle.isInstalled fun b s => (.exported b.toNat, s))
  | .newHandle r name => .ok (s.newHandle r name)
  | .showHandle name => .ok (s.showHandle name)
  | .dropHandle name => .ok (s.endHandle name Handle.drop)
  | .uninstallHandle name => .ok (s.endHandle name Handle.uninstall)
  | .report recorder locks => .ok (s.report recorder locks)
  | .reportHost locks => .ok (s.reportHost locks)
  | .setLocking r f => .ok (s.doesAt r fun r => access (.setLocking r f))
  | .setId r f => .ok (s.doesAt r fun r => access (.setId r f))
  | .query r => .ok (s.query r)
  | .threadId worker via => .ok (s.threadId worker via)
  | .race kind r threads => .ok (s.race kind r threads)
  | .setSeeded seeded => .ok (.done, { s with world.seeded := seeded })
  | .setStart code errors => .ok (s.setStart code errors)
  | .beginSession name => .ok (s.beginSession name)
  | .showSession name => .ok (s.showSession name)
  | .finishSession name => .ok (s.finishSession name)
  | .push worker code times => .ok (s.push worker code times)
  | .load library reason bytes => .ok (s.load library reason bytes)
  | .pop worker name => .ok (s.pop worker name)
  | .drain worker name => .ok (s.drain worker name)
  | .emptyStack name => .ok (s.keepStack name [])
  | .showError name => .ok (s.showError name)
  | .showStack name => .ok (s.showStack name)
  | .compareErrors a b => .ok (s.compare s.keptErrors a b)
  | .compareStacks a b => .ok (s.compare s.keptStacks a b)
  | .showAlreadyInitialized => .ok (s.showFailure .alreadyInitialized)
  | .showRefused stack => .ok (s.showRefused stack)
  | .showNoEntropy => .ok (s.showFailure .noEntropy)
  | .recordServerName recorder context f => .ok (s.recordServerName recorder context f)
  | .newContext => .ok s.newContext
  | .setServerName context entry f => .ok (s.setServerName context entry f)
  | .setServerNameArgument context x => .ok (s.setServerNameArgument context x)
  | .newClient context => .ok (s.newClient context)
  | .setHost client bytes => .ok (s.setHost client bytes)
  | .showHost client => .ok (s.showHost client)
  | .hello context host => .ok (s.hello context host)

/-- the stage with nothing seen yet -/
def unseen (s : Stage) : Stage := { s with world.trace := [] }

/-- an answer, with what was seen since the last command and how the state is now -/
def reportOf (s : Stage) (c : Command) (a : Answer) : Report where
  answer := a
  woken := a.woken
  logs := inOrder (logs s.world.trace)
  calls := inOrder (CallbackLocks.calls s.world.edition s.world.trace)
  installed := s.world.isInstalled
  lockCount := s.world.tableSize
  recorders := (List.range s.statuses.length).map fun i => s.world.slots (.recorder i)
  hostSlots := match s.world.edition with
    | .modern => none
    | .legacy => some (s.world.slots .host)
where
  /-- lines of a race have no order of their own -/
  inOrder (lines : List String) : List String := if c.isRace then sorted lines else lines

/-- What comes of a command, and the stage after it. -/
def step (s : Stage) (c : Command) : Except Fault (Report × Stage) :=
  if s.world.hasWaiting && !c.runsWhileWaiting then
    .ok (s.unseen.reportOf c .threadsBlocked, s.unseen)
  else do
    let (a, s) ← s.unseen.perform c
    return (s.reportOf c a, s)

/-- What comes of commands, one after another.  A fault is the last thing that comes. -/
def run (s : Stage) : List Command → List Reply
  | [] => []
  | c :: cs => match s.step c with
    | .error f => [.ended f]
    | .ok (r, s) => .report r :: s.run cs

end CallbackLocks.Stage
