import CallbackLocks.Proofs.Alone.Twins
import CallbackLocks.Scenario.Run

/-!
# Two editions that cannot be told apart

A scenario that keeps to the host comes to the same with a modern host and with a legacy one that
asks for one lock.

* `Command.isOnHost`   the commands of such a scenario
* `Reply.apart`      a reply without the calls that the host gets and what its slots hold
* `Stage.freely`     commands one after another, none of them kept back
* `Stage.Twin`       the stage has a twin with that state of the process
* `Stage.Alike`      two commands have come to the same
* `Stage.perform_alike`   **every such command comes to the same**
* `Stage.editions_alike`   **every such scenario does**
-/

namespace CallbackLocks

/-! ## scenarios at the host -/

/-- The command is about the host, or about handles and sessions, which are at the host then. -/
def Command.isOnHost : Command → Bool
  | install r plain | teardown r plain => plain || r == .host
  | newHandle r _ => r == .host
  | call _ via _ _ _ => via == .direct
  | look | showHandle _ | dropHandle _ | uninstallHandle _ | setSeeded _ | beginSession _
  | showSession _ | finishSession _ => true
  | _ => false

/-- a report without the calls that the host gets and what its slots hold -/
def Report.apart (r : Report) : Report := { r with calls := [], hostSlots := none }

def Reply.apart : Reply → Reply
  | report r => report r.apart
  | ended f => ended f

def Reply.fault? : Reply → Option Fault
  | report _ => none
  | ended f => some f

namespace Stage

open Program

/-- What comes of commands, one after another, also while a thread waits. -/
def freely (s : Stage) : List Command → List Reply
  | [] => []
  | c :: cs => match s.unseen.perform c with
    | .error f => [.ended f]
    | .ok (a, s) => .report (s.reportOf c a) :: s.freely cs

/-- The stage has a twin with that state of the process, and all that is kept is at the host. -/
structure Twin (s : Stage) (l : World) : Prop where
  world : s.world.Twin l
  handles : ∀ e ∈ s.handles, e.2.registry = .host
  sessions : ∀ e ∈ s.sessions, e.2.handle.registry = .host

/-- The two answers are the same, and the stages are twins. -/
def Alike (x y : Answer × Stage) : Prop :=
  ∃ a s l, x = (a, s) ∧ y = (a, { s with world := l }) ∧ s.Twin l

variable {s : Stage} {l : World}

theorem Twin.find_handle (h : s.Twin l) {name : String} {x : Handle}
    (hx : s.handles.find? name = some x) : x.registry = .host := by
  obtain ⟨l₁, l₂, heq, -⟩ := List.lookup_eq_some_iff.mp hx
  exact h.handles (name, x) (by rw [heq]; simp)

theorem Twin.find_session (h : s.Twin l) {name : String} {x : Session}
    (hx : s.sessions.find? name = some x) : x.handle.registry = .host := by
  obtain ⟨l₁, l₂, heq, -⟩ := List.lookup_eq_some_iff.mp hx
  exact h.sessions (name, x) (by rw [heq]; simp)

theorem act_alike {α : Type} {post : α → Prop} {p q : Program α} {f : α → Stage → Answer × Stage}
    (hs : s.Twin l) (hp : p.Match .main post q s.world l)
    (hf : ∀ x m' l', post x → m'.Twin l' →
      Alike (f x { s with world := m' }) (f x { s with world := l' })) :
    Alike (s.act p f) (({ s with world := l } : Stage).act q f) := by
  obtain ⟨x, m', l', hm, hl, ht, hpost⟩ := hp
  simp only [act, hm, hl]
  cases x with
  | ok x => exact hf x m' l' (hpost x rfl) ht
  | error e => exact ⟨.abandoned e, { s with world := m' }, l', rfl, rfl, { hs with world := ht }⟩

theorem does_alike {p q : Program Unit} (hs : s.Twin l)
    (hp : p.Match .main (fun _ => True) q s.world l) :
    Alike (s.does p) (({ s with world := l } : Stage).does q) :=
  act_alike hs hp fun _ m' l' _ ht =>
    ⟨.done, { s with world := m' }, l', rfl, rfl, { hs with world := ht }⟩

theorem newHandle_alike (hs : s.Twin l) (name : String) :
    Alike (s.newHandle .host name) (({ s with world := l } : Stage).newHandle .host name) := by
  simp only [newHandle, hasRegistry, if_true, bind_eq, pure_eq]
  have hkept : ∀ (x : Handle × HandleView) m' l', x.1.registry = .host → m'.Twin l' →
      Alike (.handle x.2, { s with world := m', handles := s.handles.put name x.1 })
        (.handle x.2, { s with world := l', handles := s.handles.put name x.1 }) := by
    intro ⟨h, v⟩ m' l' hr ht
    refine ⟨_, { s with world := m', handles := s.handles.put name h }, l', rfl, rfl, ht, ?_,
      hs.sessions⟩
    intro e he
    rcases List.mem_cons.mp he with rfl | he
    · exact hr
    · exact hs.handles e (List.mem_of_mem_filter he)
  refine act_alike hs ((Handle.install_match hs.world).bind fun h _ _ hr h₁ =>
    (Handle.view_match hr h₁).bind fun v _ _ _ h₂ => ?_) hkept
  cases hx : s.handles.find? name with
  | none => exact Match.done h₂ hr
  | some older =>
    exact (Handle.drop_match (hs.find_handle hx) h₂).bind fun _ _ _ _ h₃ => Match.done h₃ hr

theorem showHandle_alike (hs : s.Twin l) (name : String) :
    Alike (s.showHandle name) (({ s with world := l } : Stage).showHandle name) := by
  unfold showHandle
  cases hx : s.handles.find? name with
  | none => exact ⟨.badStep, s, l, rfl, rfl, hs⟩
  | some h =>
    exact act_alike hs (Handle.view_match (hs.find_handle hx) hs.world) fun v m' l' _ ht =>
      ⟨.handle v, { s with world := m' }, l', rfl, rfl, { hs with world := ht }⟩

theorem endHandle_alike (hs : s.Twin l) (name : String) {way : Handle → Program Unit}
    (hw : ∀ {h m l}, h.registry = .host → m.Twin l →
      (way h).Match .main (fun _ => True) (way h) m l) :
    Alike (s.endHandle name way) (({ s with world := l } : Stage).endHandle name way) := by
  unfold endHandle
  cases hx : s.handles.find? name with
  | none => exact ⟨.badStep, s, l, rfl, rfl, hs⟩
  | some h =>
    have hs' : Twin { s with handles := s.handles.erase name } l :=
      { hs with handles := fun e he => hs.handles e (List.mem_of_mem_filter he) }
    exact does_alike hs' (hw (hs.find_handle hx) hs.world)

theorem beginSession_alike (hs : s.Twin l) (name : String) :
    Alike (s.beginSession name) (({ s with world := l } : Stage).beginSession name) := by
  have hmatch : (Session.begin s.world.edition).Match .main
      (fun x => ∀ y, x = .ok y → y.handle.registry = .host) (Session.begin l.edition) s.world l := by
    rw [hs.world.modern, hs.world.legacy]
    exact Session.begin_match hs.world
  refine act_alike hs hmatch fun x m' l' hx ht => ?_
  cases x with
  | error f =>
    exact ⟨_, { s with world := m' }, l', rfl, rfl, { hs with world := ht }⟩
  | ok x =>
    refine ⟨_, { s with world := m', sessions := s.sessions.put name x }, l', rfl, rfl, ht,
      hs.handles, fun e he => ?_⟩
    rcases List.mem_cons.mp he with rfl | he
    · exact hx x rfl
    · exact hs.sessions e (List.mem_of_mem_filter he)

theorem showSession_alike (hs : s.Twin l) (name : String) :
    Alike (s.showSession name) (({ s with world := l } : Stage).showSession name) := by
  unfold showSession
  cases hx : s.sessions.find? name with
  | none => exact ⟨.badStep, s, l, rfl, rfl, hs⟩
  | some x =>
    have hshown : ∀ (v : Shown × HandleView) m' l', True → m'.Twin l' →
        Alike (.session v.1 v.2, { s with world := m' }) (.session v.1 v.2, { s with world := l' }) :=
      fun _ m' l' _ ht => ⟨_, { s with world := m' }, l', rfl, rfl, { hs with world := ht }⟩
    exact act_alike hs ((Session.describe_match hs.world).bind fun _ _ _ _ h₁ =>
      (Handle.view_match (hs.find_session hx) h₁).bind fun _ _ _ _ h₂ => Match.done h₂ trivial)
      hshown

theorem finishSession_alike (hs : s.Twin l) (name : String) :
    Alike (s.finishSession name) (({ s with world := l } : Stage).finishSession name) := by
  unfold finishSession
  cases hx : s.sessions.find? name with
  | none => exact ⟨.badStep, s, l, rfl, rfl, hs⟩
  | some x =>
    have hs' : Twin { s with sessions := s.sessions.erase name } l :=
      { hs with sessions := fun e he => hs.sessions e (List.mem_of_mem_filter he) }
    have hmatch : (x.finish s.world.edition).Match .main (fun _ => True) (x.finish l.edition)
        s.world l := by
      rw [hs.world.modern, hs.world.legacy]
      exact Session.finish_match (hs.find_session hx) hs.world
    exact does_alike hs' hmatch

/-! ## single commands -/

theorem call_alike (hs : s.Twin l) (worker : Nat) (mode index line : Int32) :
    (∃ f, s.call worker .direct mode index line = .error f ∧
      ({ s with world := l } : Stage).call worker .direct mode index line = .error f) ∨
    ∃ x y, s.call worker .direct mode index line = .ok x ∧
      ({ s with world := l } : Stage).call worker .direct mode index line = .ok y ∧ Alike x y := by
  have hwaiting : l.isWaiting (.worker worker) = s.world.isWaiting (.worker worker) := by
    simp only [World.isWaiting, hs.world.table]
  simp only [call, canReach, reach, Bool.not_true, Bool.false_eq_true, if_false, hwaiting,
    hs.world.table]
  split
  · exact .inr ⟨_, _, rfl, rfl, .threadBlocked, s, l, rfl, rfl, hs⟩
  · cases hd : dispatch s.world.table (.worker worker) mode index with
    | error f => exact .inl ⟨f, rfl, rfl⟩
    | ok x =>
      obtain ⟨o, t⟩ := x
      refine .inr ⟨_, _, rfl, rfl, .called o, { s with world.table := some t },
        { l with table := some t }, rfl, rfl, { hs with world := ?_ }⟩
      exact { hs.world with
        table := rfl, recorders := hs.world.recorders, vacant := fun ht => nomatch ht }

/-- **Every command at the host comes to the same.** -/
theorem perform_alike (hs : s.Twin l) {c : Command} (hc : c.isOnHost = true) :
    (∃ f, s.perform c = .error f ∧ ({ s with world := l } : Stage).perform c = .error f) ∨
    ∃ x y, s.perform c = .ok x ∧ ({ s with world := l } : Stage).perform c = .ok y ∧
      Alike x y := by
  have hdoes : ∀ {r : Registry} {p : Registry → Program Unit},
      (p r).Match .main (fun _ => True) (p r) s.world l →
      Alike (s.doesAt r p) (({ s with world := l } : Stage).doesAt r p) := by
    intro r p hp
    unfold doesAt
    split
    · rename_i hr
      rw [if_pos (show Stage.hasRegistry { s with world := l } r = true from hr)]
      exact does_alike hs hp
    · rename_i hr
      rw [if_neg (show ¬ Stage.hasRegistry { s with world := l } r = true from hr)]
      exact ⟨.badStep, s, l, rfl, rfl, hs⟩
  have hhost : ∀ {r : Registry} {plain : Bool}, (plain || r == .host) = true →
      (if plain then .host else r) = Registry.host := by
    intro r plain h
    cases plain with
    | true => rfl
    | false => exact eq_of_beq h
  cases c with
  | look => exact .inr ⟨_, _, rfl, rfl, .done, s, l, rfl, rfl, hs⟩
  | install r plain =>
    refine .inr ⟨_, _, rfl, rfl, hdoes ?_⟩
    rw [hhost hc]
    exact (Lifecycle.install_match hs.world).bind fun _ _ _ _ h₁ => Match.done h₁ trivial
  | teardown r plain =>
    refine .inr ⟨_, _, rfl, rfl, hdoes ?_⟩
    rw [hhost hc]
    exact Lifecycle.teardown_match hs.world
  | newHandle r name =>
    obtain rfl : r = .host := eq_of_beq hc
    exact .inr ⟨_, _, rfl, rfl, newHandle_alike hs name⟩
  | call worker via mode index line =>
    obtain rfl : via = .direct := eq_of_beq hc
    exact call_alike hs worker mode index line
  | showHandle name => exact .inr ⟨_, _, rfl, rfl, showHandle_alike hs name⟩
  | dropHandle name => exact .inr ⟨_, _, rfl, rfl, endHandle_alike hs name Handle.drop_match⟩
  | uninstallHandle name =>
    exact .inr ⟨_, _, rfl, rfl, endHandle_alike hs name Handle.uninstall_match⟩
  | setSeeded seeded =>
    refine .inr ⟨_, _, rfl, rfl, .done, { s with world.seeded := seeded },
      { l with seeded := seeded }, rfl, rfl, { hs with world := ?_ }⟩
    exact { hs.world with recorders := hs.world.recorders, seeded := rfl }
  | beginSession name => exact .inr ⟨_, _, rfl, rfl, beginSession_alike hs name⟩
  | showSession name => exact .inr ⟨_, _, rfl, rfl, showSession_alike hs name⟩
  | finishSession name => exact .inr ⟨_, _, rfl, rfl, finishSession_alike hs name⟩
  | _ => exact nomatch hc

/-! ## scenarios -/

theorem Twin.unseen (hs : s.Twin l) : s.unseen.Twin { l with trace := [] } :=
  { hs with world := { hs.world with recorders := hs.world.recorders, logs := rfl } }

/-- What is seen of twins is the same, but for the calls of the host and its slots. -/
theorem reportOf_alike (hs : s.Twin l) (c : Command) (a : Answer) :
    (s.reportOf c a).apart = (({ s with world := l } : Stage).reportOf c a).apart := by
  have hslots : ∀ i, s.world.slots (.recorder i) = l.slots (.recorder i) :=
    fun i => (hs.world.recorders i).symm
  simp only [Report.apart, reportOf, reportOf.inOrder, World.isInstalled, World.tableSize,
    hs.world.table, hs.world.logs, hslots]

/-- What comes of a command, with all that is seen of it, is the same. -/
theorem step_alike (hs : s.Twin l) {c : Command} (hc : c.isOnHost = true) :
    (∃ f, s.step c = .error f ∧ ({ s with world := l } : Stage).step c = .error f) ∨
    ∃ r r' s' l', s.step c = .ok (r, s') ∧
      ({ s with world := l } : Stage).step c = .ok (r', { s' with world := l' }) ∧
      r.apart = r'.apart ∧ s'.Twin l' := by
  have hwaiting : l.hasWaiting = s.world.hasWaiting := by
    simp only [World.hasWaiting, hs.world.table]
  simp only [step, hwaiting]
  split
  · exact .inr ⟨_, _, _, _, rfl, rfl, reportOf_alike hs.unseen c .threadsBlocked, hs.unseen⟩
  · rcases perform_alike hs.unseen hc with ⟨f, hm, hl⟩ | ⟨x, y, hm, hl, a, s', l', rfl, rfl, hs'⟩
    · replace hl : ({ s with world := l } : Stage).unseen.perform c = .error f := hl
      rw [hm, hl]
      exact .inl ⟨f, rfl, rfl⟩
    · replace hl : ({ s with world := l } : Stage).unseen.perform c = .ok (a, _) := hl
      rw [hm, hl]
      exact .inr ⟨_, _, s', l', rfl, rfl, reportOf_alike hs' c a, hs'⟩

theorem run_alike {cs : List Command} (hcs : ∀ c ∈ cs, c.isOnHost = true) (hs : s.Twin l) :
    (s.run cs).map Reply.apart = (({ s with world := l } : Stage).run cs).map Reply.apart := by
  induction cs generalizing s l with
  | nil => rfl
  | cons c cs ih =>
    rcases step_alike hs (hcs c List.mem_cons_self) with
      ⟨f, hm, hl⟩ | ⟨r, r', s', l', hm, hl, hr, hs'⟩
    · simp only [run, hm, hl]
    · simp only [run, hm, hl, List.map_cons, Reply.apart, hr]
      rw [ih (fun c' hc' => hcs c' (List.mem_cons_of_mem c hc')) hs']

/-- It is also the same if no command is kept back while a thread waits. -/
theorem freely_alike {cs : List Command} (hcs : ∀ c ∈ cs, c.isOnHost = true) (hs : s.Twin l) :
    (s.freely cs).map Reply.apart = (({ s with world := l } : Stage).freely cs).map Reply.apart := by
  induction cs generalizing s l with
  | nil => rfl
  | cons c cs ih =>
    rcases perform_alike hs.unseen (hcs c List.mem_cons_self) with
      ⟨f, hm, hl⟩ | ⟨x, y, hm, hl, a, s', l', rfl, rfl, hs'⟩
    · replace hl : ({ s with world := l } : Stage).unseen.perform c = .error f := hl
      simp only [freely, hm, hl]
    · replace hl : ({ s with world := l } : Stage).unseen.perform c = .ok (a, _) := hl
      simp only [freely, hm, hl, List.map_cons, Reply.apart, reportOf_alike hs' c a]
      rw [ih (fun c' hc' => hcs c' (List.mem_cons_of_mem c hc')) hs']

theorem twin_initial (recorders : List Recorder) (hostLocks : Int32) :
    (initial .modern recorders hostLocks).Twin (initial .legacy recorders 1).world where
  world := by
    refine ⟨rfl, rfl, rfl, rfl, rfl, rfl, rfl, rfl, rfl, fun _ => rfl, rfl, rfl, rfl, rfl, fun _ => rfl⟩
  handles := fun _ h => nomatch h
  sessions := fun _ h => nomatch h

/-- **Two editions that cannot be told apart.**  A scenario at the host comes to the same with a
modern host and with a legacy one that asks for one lock: the answers, the threads that go on, the
lines of the log, whether a table is installed and of which size, what recorders hold, and a fault
that ends the process.  So it is whether or not commands are kept back while a thread waits. -/
theorem editions_alike (recorders : List Recorder) (hostLocks : Int32) {cs : List Command}
    (hcs : ∀ c ∈ cs, c.isOnHost = true) :
    ((initial .modern recorders hostLocks).run cs).map Reply.apart
      = ((initial .legacy recorders 1).run cs).map Reply.apart ∧
    ((initial .modern recorders hostLocks).freely cs).map Reply.apart
      = ((initial .legacy recorders 1).freely cs).map Reply.apart := by
  have hs := twin_initial recorders hostLocks
  exact ⟨run_alike hcs hs, freely_alike hcs hs⟩

/-- A session fails for want of a seed while a handle is there, another one begins, and a lock is
asked for when all is over. -/
def visit : List Command :=
  [.newHandle .host "a", .call 0 .direct 1 0 0, .call 1 .direct 1 0 0, .showHandle "a",
    .call 0 .direct 2 0 0, .setSeeded false, .beginSession "s", .dropHandle "a", .setSeeded true,
    .beginSession "s", .showSession "s", .finishSession "s", .call 0 .direct 1 0 0]

theorem editions_alike_visit : (∀ c ∈ visit, c.isOnHost = true) ∧
    ((initial .modern [] 0).run visit).map Reply.apart
      = ((initial .legacy [] 1).run visit).map Reply.apart ∧
    ((initial .legacy [] 1).run visit).filterMap Reply.fault? = [.noTable 0] := by
  have hcs : ∀ c ∈ visit, c.isOnHost = true := by decide
  exact ⟨hcs, (editions_alike [] 0 hcs).1, by decide +kernel⟩

end Stage

end CallbackLocks
