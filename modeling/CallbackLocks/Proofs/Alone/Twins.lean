import CallbackLocks.Proofs.Alone.Effects

/-!
# Two processes that differ in their host library

One process has a modern host.  The other has a legacy one that asks for one lock and starts without
complaint.  What is done at the host, with nobody between, comes to the same in both.

* `World.Twin`       the two processes agree on all but the host library's side
* `Access.IsAlike`   an access that shows no difference
* `Twin.perform`     such an access leads to twins again
* `Program.Match`    two programs come to the same result, and lead to twins
* `Match.alike`, `Match.bind`, `Match.aside`   how programs are matched
* `Session.begin_match`, `Session.finish_match`, …   **what is done at the host is matched**

In the legacy process the locking slot of the host is empty while no table is installed.
-/

namespace CallbackLocks

open Program

theorem logs_append (es es' : List Event) : logs (es ++ es') = logs es ++ logs es' :=
  List.filterMap_append ..

/-- The two processes agree on all but the host library's side. -/
structure World.Twin (m l : World) : Prop where
  modern : m.edition = .modern
  legacy : l.edition = .legacy
  hostLocks : l.hostLocks = 1
  startCode : l.startCode = 1
  startErrors : l.startErrors = []
  table : l.table = m.table
  generation : l.generation = m.generation
  lifecycle : l.lifecycle = m.lifecycle
  claimed : l.claimed = m.claimed
  recorders : ∀ i, l.holds (.recorder i) = m.holds (.recorder i)
  reported : l.reported = m.reported
  seeded : l.seeded = m.seeded
  queues : l.queues = m.queues
  logs : logs l.trace = logs m.trace
  vacant : l.table = none → l.locking .host = none

/-- The access is none on a recorder, and shows no difference between twins. -/
def Access.IsAlike (l : World) : Access → Prop
  | readLocking .host => l.table = none
  | setLocking .host (some _) => l.table ≠ none
  | withdrawTable => l.locking .host = none
  | readLocking (.recorder _) | setLocking (.recorder _) _ | setId (.recorder _) _ => False
  | startHost | loadErrorStrings | cleanAlgorithms | cleanExtraData | freeErrorStrings => False
  | _ => True

/-- It is asked of a legacy host only. -/
def Access.isOfLegacy : Access → Bool
  | startHost | loadErrorStrings | cleanAlgorithms | cleanExtraData | freeErrorStrings => true
  | _ => false

namespace World.Twin

variable {m l : World}

theorem saw (h : m.Twin l) {e e' : Event} (he : CallbackLocks.logs [e'] = CallbackLocks.logs [e]) :
    (m.saw e).Twin (l.saw e') :=
  { h with
    recorders := h.recorders
    logs := by
      show CallbackLocks.logs (l.trace ++ [e']) = CallbackLocks.logs (m.trace ++ [e])
      rw [logs_append, logs_append, h.logs, he] }

theorem locking_modern (h : m.Twin l) : m.locking .host = none := by
  simp [locking, keeps, h.modern]

theorem lockCount_eq (h : m.Twin l) (r : Registry) : l.lockCount r = m.lockCount r := by
  cases r with
  | recorder i => exact congrFun h.reported i
  | host =>
    simp only [lockCount, h.modern, h.legacy, h.hostLocks]
    rfl

theorem register_modern (h : m.Twin l) (f : Option LockCallback) : m.register .host f = m := by
  simp [World.register, keeps, h.modern]

theorem registerId_modern (h : m.Twin l) (f : Option IdCallback) : m.registerId .host f = m := by
  simp [World.registerId, keeps, h.modern]

theorem register (h : m.Twin l) {f : Option LockCallback} (hf : f ≠ none → l.table ≠ none) :
    m.Twin (l.register .host f) := by
  have hrec := fun i => l.holds_register .host (.recorder i) f
  have hhost := l.locking_register_eq .host .host f
  obtain ⟨s, hs⟩ := l.register_eq .host f
  rw [hs] at hrec hhost ⊢
  refine { h with recorders := fun i => ?_, vacant := fun ht => ?_ }
  · rw [hrec, if_neg fun heq => nomatch heq.1]
    exact h.recorders i
  · rw [hhost, if_pos rfl]
    split
    · by_contra hne
      exact hf hne ht
    · rfl

theorem registerId (h : m.Twin l) (f : Option IdCallback) : m.Twin (l.registerId .host f) := by
  have hrec := fun i => l.holds_registerId .host (.recorder i) f
  have hhost := l.locking_registerId .host .host f
  obtain ⟨s, hs, -⟩ := l.registerId_eq .host f
  rw [hs] at hrec hhost ⊢
  refine { h with recorders := fun i => ?_, vacant := fun ht => hhost.trans (h.vacant ht) }
  rw [hrec, if_neg fun heq => nomatch heq.1]
  exact h.recorders i

/-- Where an access shows no difference, twins answer the same and stay twins. -/
theorem perform (h : m.Twin l) {a : Access} (ha : a.IsAlike l) (who : Thread) :
    (a.perform who l).1 = (a.perform who m).1 ∧ (a.perform who m).2.Twin (a.perform who l).2 := by
  cases a with
  | takeLifecycle => exact ⟨rfl, { h with lifecycle := rfl, recorders := h.recorders }⟩
  | freeLifecycle => exact ⟨rfl, { h with lifecycle := rfl, recorders := h.recorders }⟩
  | claim =>
    exact ⟨congrArg (!·) h.claimed, { h with claimed := rfl, recorders := h.recorders }⟩
  | unclaim => exact ⟨rfl, { h with claimed := rfl, recorders := h.recorders }⟩
  | loadTable => exact ⟨congrArg (Option.map LockTable.size) h.table, h⟩
  | publishTable size =>
    exact ⟨rfl, { h with
      table := rfl, recorders := h.recorders, vacant := fun ht => nomatch ht }⟩
  | withdrawTable =>
    exact ⟨rfl, { h with table := rfl, recorders := h.recorders, vacant := fun _ => ha }⟩
  | countInstall =>
    exact ⟨rfl, { h with
      generation := congrArg (· + 1) h.generation, recorders := h.recorders, vacant := h.vacant }⟩
  | readGeneration => exact ⟨h.generation, h⟩
  | readSeeded => exact ⟨h.seeded, h⟩
  | initHost => exact ⟨rfl, h⟩
  | countLocks r => exact ⟨h.lockCount_eq r, h.saw rfl⟩
  | log line => exact ⟨rfl, h.saw rfl⟩
  | drainErrors =>
    refine ⟨?_, { h with recorders := h.recorders, queues := ?_ }⟩
    · show (l.queues who).drain.1 = (m.queues who).drain.1
      rw [h.queues]
    · show (fun t => if t = who then (l.queues who).drain.2 else l.queues t)
        = fun t => if t = who then (m.queues who).drain.2 else m.queues t
      rw [h.queues]
  | readLocking r => cases r with
    | host => exact ⟨(h.vacant ha).trans h.locking_modern.symm, h.saw rfl⟩
    | recorder i => exact ha.elim
  | setLocking r f => cases r with
    | host =>
      refine ⟨rfl, ?_⟩
      show ((m.register .host f).saw _).Twin ((l.register .host f).saw _)
      rw [h.register_modern]
      refine (h.register fun hf => ?_).saw rfl
      cases f with
      | none => exact absurd rfl hf
      | some f => exact ha
    | recorder i => exact ha.elim
  | setId r f => cases r with
    | host =>
      refine ⟨rfl, ?_⟩
      show ((m.registerId .host f).saw _).Twin ((l.registerId .host f).saw _)
      rw [h.registerId_modern]
      exact (h.registerId f).saw rfl
    | recorder i => exact ha.elim
  | startHost | loadErrorStrings | cleanAlgorithms | cleanExtraData | freeErrorStrings =>
    exact ha.elim

/-- What only a legacy host is asked for shows in its own trace at most. -/
theorem aside (h : m.Twin l) {a : Access} (ha : a.isOfLegacy = true) (who : Thread) :
    m.Twin (a.perform who l).2 := by
  have hsaw : ∀ c, m.Twin (l.saw (.call c)) := fun c => { h with
    recorders := h.recorders
    logs := by
      show CallbackLocks.logs (l.trace ++ [.call c]) = _
      rw [logs_append, h.logs]
      exact List.append_nil _ }
  cases a with
  | startHost =>
    have hqueue : l.setQueue who ((l.queues who).pushAll l.startErrors) = l := by
      rw [h.startErrors, ErrorQueue.pushAll_nil, World.setQueue]
      congr
      funext t
      split
      · rename_i ht
        rw [ht]
      · rfl
    show m.Twin ((l.setQueue who ((l.queues who).pushAll l.startErrors)).saw _)
    rw [hqueue]
    exact hsaw _
  | loadErrorStrings | cleanAlgorithms | cleanExtraData | freeErrorStrings => exact hsaw _
  | _ => exact nomatch ha

end World.Twin

/-! ## programs that match -/

namespace Program

/-- Carried through by `who`, with nobody between, the two programs come to the same result, of
which `post` holds if it is one, and to twins. -/
def Match {α : Type} (who : Thread) (post : α → Prop) (p q : Program α) (m l : World) : Prop :=
  ∃ x m' l', p.run who m = (x, m') ∧ q.run who l = (x, l') ∧ m'.Twin l' ∧
    ∀ y, x = .ok y → post y

variable {α β : Type} {who : Thread} {post : α → Prop} {post' : β → Prop} {m l : World}

theorem Match.done {x : α} (h : m.Twin l) (hx : post x) :
    (Program.done x).Match who post (Program.done x) m l :=
  ⟨.ok x, m, l, rfl, rfl, h, fun _ hy => Except.ok.inj hy ▸ hx⟩

theorem Match.bind {p q : Program α} {f g : α → Program β} (h : p.Match who post q m l)
    (hf : ∀ x m' l', post x → m'.Twin l' → (f x).Match who post' (g x) m' l') :
    (p.bind f).Match who post' (q.bind g) m l := by
  obtain ⟨x, m', l', hp, hq, ht, hpost⟩ := h
  cases x with
  | error e =>
    refine ⟨.error e, m', l', ?_, ?_, ht, fun _ hy => nomatch hy⟩
    · rw [run_bind, hp]
    · rw [run_bind, hq]
  | ok x =>
    obtain ⟨y, m'', l'', hp', hq', hend⟩ := hf x m' l' (hpost x rfl) ht
    refine ⟨y, m'', l'', ?_, ?_, hend⟩
    · rw [run_bind, hp]
      exact hp'
    · rw [run_bind, hq]
      exact hq'

/-- An access that shows no difference. -/
theorem Match.alike {a : Access} {next next' : a.Reply → Program α} (h : m.Twin l)
    (ha : a.IsAlike l)
    (hn : (a.perform who m).2.Twin (a.perform who l).2 →
      (next (a.perform who l).1).Match who post (next' (a.perform who l).1)
        (a.perform who m).2 (a.perform who l).2) :
    (step a next).Match who post (step a next') m l := by
  obtain ⟨hreply, htwin⟩ := h.perform ha who
  obtain ⟨x, m', l', hp, hq, hend⟩ := hn htwin
  refine ⟨x, m', l', ?_, hq, hend⟩
  rw [run_step, ← hreply]
  exact hp

/-- An access that only a legacy host is asked for. -/
theorem Match.aside {p : Program α} {a : Access} {next : a.Reply → Program α} (h : m.Twin l)
    (ha : a.isOfLegacy = true)
    (hn : m.Twin (a.perform who l).2 →
      p.Match who post (next (a.perform who l).1) m (a.perform who l).2) :
    p.Match who post (step a next) m l := hn (h.aside ha who)

end Program

/-! ## tables and handles at the host -/

namespace Lifecycle

variable {who : Thread} {m l : World}

theorem install_match (h : m.Twin l) :
    (install .host).Match who (fun _ => True) (install .host) m l := by
  simp only [install, log, access_eq, bind_eq, bind_step, bind_done, pure_eq]
  refine Match.alike h trivial fun h₁ => Match.alike h₁ trivial fun h₂ => ?_
  cases ht : l.table with
  | some table =>
    have hload : (Access.loadTable.perform who (Access.takeLifecycle.perform who l).2).1
        = some table.size := congrArg (Option.map LockTable.size) ht
    rw [hload]
    exact Match.alike h₂ trivial fun h₃ => Match.alike h₃ trivial fun h₄ => Match.done h₄ trivial
  | none =>
    have hload : (Access.loadTable.perform who (Access.takeLifecycle.perform who l).2).1 = none :=
      congrArg (Option.map LockTable.size) ht
    rw [hload]
    refine Match.alike h₂ ht fun h₃ => ?_
    have hread : ((Access.readLocking .host).perform who (Access.loadTable.perform who
        (Access.takeLifecycle.perform who l).2).2).1 = none := h.vacant ht
    rw [hread]
    refine Match.alike h₃ trivial fun h₄ => ?_
    generalize ((Access.countLocks .host).perform who ((Access.readLocking .host).perform who
      (Access.loadTable.perform who (Access.takeLifecycle.perform who l).2).2).2).1 = n
    show (if n < maxLocks then _ else _ : Program (Option Nat)).Match _ _ (if n < maxLocks then _
      else _) _ _
    split
    · refine Match.alike h₄ trivial fun h₅ => Match.alike h₅ trivial fun h₆ => ?_
      refine Match.alike h₆ ?_ fun h₇ => Match.alike h₇ trivial fun h₈ => ?_
      · show (World.registerId _ _ _).table ≠ none
        rw [World.table_registerId]
        exact Option.some_ne_none _
      refine Match.alike h₈ trivial fun h₉ => Match.alike h₉ trivial fun h₁₀ => ?_
      exact Match.alike h₁₀ trivial fun h₁₁ => Match.done h₁₁ trivial
    · refine Match.alike h₄ trivial fun h₅ => ⟨_, _, _, rfl, rfl, h₅, ?_⟩
      intro _ hy
      cases hy

theorem remove_match (h : m.Twin l) :
    (remove .host).Match who (fun _ => True) (remove .host) m l := by
  simp only [remove, log, access_eq, bind_eq, bind_step, bind_done]
  refine Match.alike h trivial fun h₁ => ?_
  cases (Access.loadTable.perform who l).1 with
  | none => exact Match.alike h₁ trivial fun h₂ => Match.done h₂ trivial
  | some size =>
    refine Match.alike h₁ trivial fun h₂ => Match.alike h₂ trivial fun h₃ => ?_
    refine Match.alike h₃ ?_ fun h₄ => Match.alike h₄ trivial fun h₅ => Match.done h₅ trivial
    show (World.register _ .host none).locking .host = none
    rw [World.locking_register_eq, if_pos rfl, ite_self]

theorem teardown_match (h : m.Twin l) :
    (teardown .host).Match who (fun _ => True) (teardown .host) m l :=
  Match.alike h trivial fun h₁ => (remove_match h₁).bind fun _ _ _ _ h₂ =>
    Match.alike h₂ trivial fun h₃ => Match.done h₃ trivial

theorem isCurrent_match (g : Nat) (h : m.Twin l) :
    (isCurrent g).Match who (fun _ => True) (isCurrent g) m l := by
  refine Match.alike h trivial fun h₁ => ?_
  show (if l.generation = g then _ else _ : Program Bool).Match _ _ (if l.generation = g then _
    else _) _ _
  split
  · exact Match.alike h₁ trivial fun h₂ => Match.done h₂ trivial
  · exact Match.done h₁ trivial

theorem removeIfCurrent_match (g : Nat) (h : m.Twin l) :
    (removeIfCurrent .host g).Match who (fun _ => True) (removeIfCurrent .host g) m l := by
  have hfree : ∀ {m l : World}, m.Twin l → (access .freeLifecycle).Match who (fun _ => True)
      (access .freeLifecycle) m l :=
    fun h => Match.alike h trivial fun h₁ => Match.done h₁ trivial
  refine Match.alike h trivial fun h₁ => (isCurrent_match g h₁).bind fun current _ _ _ h₂ => ?_
  cases current with
  | true => exact (remove_match h₂).bind fun _ _ _ _ h₃ => hfree h₃
  | false => exact Match.alike h₂ trivial fun h₃ => hfree h₃

theorem lockCount_match (h : m.Twin l) :
    lockCount.Match who (fun _ => True) lockCount m l :=
  Match.alike h trivial fun h₁ => Match.alike h₁ trivial fun h₂ => Match.alike h₂ trivial fun h₃ =>
    Match.done h₃ trivial

end Lifecycle

namespace Handle

variable {who : Thread} {m l : World} {h : Handle}

theorem install_match (ht : m.Twin l) :
    (install .host).Match who (fun h => h.registry = .host) (install .host) m l :=
  (Lifecycle.install_match ht).bind fun _ _ _ _ h₁ => Match.done h₁ rfl

theorem release_match (hr : h.registry = .host) (ht : m.Twin l) :
    h.release.Match who (fun h' => h'.registry = .host) h.release m l := by
  obtain ⟨r, g⟩ := h
  obtain rfl : r = .host := hr
  cases g with
  | none => exact Match.done ht rfl
  | some g =>
    exact (Lifecycle.removeIfCurrent_match g ht).bind fun _ _ _ _ h₁ => Match.done h₁ rfl

theorem drop_match (hr : h.registry = .host) (ht : m.Twin l) :
    h.drop.Match who (fun _ => True) h.drop m l :=
  (release_match hr ht).bind fun _ _ _ _ h₁ => Match.done h₁ trivial

theorem uninstall_match (hr : h.registry = .host) (ht : m.Twin l) :
    h.uninstall.Match who (fun _ => True) h.uninstall m l := by
  rw [h.uninstall_eq_drop]
  exact drop_match hr ht

theorem owns_match (ht : m.Twin l) : h.owns.Match who (fun _ => True) h.owns m l := by
  obtain ⟨r, g⟩ := h
  cases g with
  | none => exact Match.done ht trivial
  | some g =>
    refine Match.alike ht trivial fun h₁ => Match.alike h₁ trivial fun h₂ => ?_
    refine Match.alike h₂ trivial fun h₃ => ?_
    show (if l.generation = g then _ else _ : Program Bool).Match _ _ (if l.generation = g then _
      else _) _ _
    split
    · exact Match.alike h₃ trivial fun h₄ => Match.done h₄ trivial
    · exact Match.done h₃ trivial

/-- A handle asks the host for its callback only where no table is installed. -/
theorem isReady_match (hr : h.registry = .host) (ht : m.Twin l) :
    h.isReady.Match who (fun _ => True) h.isReady m l := by
  obtain ⟨r, g⟩ := h
  obtain rfl : r = .host := hr
  refine Match.alike ht trivial fun h₁ => ?_
  show (if l.tableSize.isSome then _ else _ : Program Bool).Match _ _ (if l.tableSize.isSome then _
    else _) _ _
  split
  · exact Match.done h₁ trivial
  · rename_i hnone
    have htable : l.table = none := by
      rwa [← World.isInstalled_eq, World.isInstalled, Option.not_isSome_iff_eq_none] at hnone
    exact Match.alike h₁ htable fun h₂ => Match.done h₂ trivial

theorem describe_match (ht : m.Twin l) : h.describe.Match who (fun _ => True) h.describe m l :=
  (Lifecycle.lockCount_match ht).bind fun _ _ _ _ h₁ => Match.done h₁ trivial

theorem view_match (hr : h.registry = .host) (ht : m.Twin l) :
    h.view.Match who (fun _ => True) h.view m l :=
  (owns_match ht).bind fun _ _ _ _ h₁ => (isReady_match hr h₁).bind fun _ _ _ _ h₂ =>
    (Lifecycle.lockCount_match h₂).bind fun _ _ _ _ h₃ =>
      (describe_match h₃).bind fun _ _ _ _ h₄ => Match.done h₄ trivial

end Handle

/-! ## sessions -/

namespace Session

variable {who : Thread} {m l : World}

theorem start_match (h : m.Twin l) :
    (start .modern).Match who (fun x => x = .ok ()) (start .legacy) m l := by
  -- the start of a modern host changes nothing
  show (Program.done (Except.ok ())).Match who _ _ m l
  simp only [start, access_eq, bind_eq, bind_step, bind_done, pure_eq]
  refine Match.aside h rfl fun h₁ => ?_
  show (Program.done _).Match _ _ (if l.startCode = 1 then _ else _) _ _
  rw [if_pos h.startCode]
  exact Match.aside h₁ rfl fun h₂ => Match.done h₂ rfl

theorem cleanUp_match (h : m.Twin l) :
    (cleanUp .modern).Match who (fun _ => True) (cleanUp .legacy) m l :=
  Match.aside h rfl fun h₁ => Match.aside h₁ rfl fun h₂ => Match.aside h₂ rfl fun h₃ =>
    Match.done h₃ trivial

theorem seed_match (h : m.Twin l) : seed.Match who (fun _ => True) seed m l := by
  refine Match.alike h trivial fun h₁ => ?_
  show (if l.seeded then _ else _ : Program _).Match _ _ (if l.seeded then _ else _) _ _
  split
  · exact Match.alike h₁ trivial fun h₂ => Match.done h₂ trivial
  · exact Match.done h₁ trivial

theorem bringUp_match (h : m.Twin l) : (bringUp .modern).Match who
    (fun x => ∀ y, x = .ok y → y.registry = .host) (bringUp .legacy) m l := by
  simp only [bringUp, bind_eq, pure_eq]
  refine (start_match h).bind fun started _ _ hs h₁ => ?_
  rw [hs]
  refine (Handle.install_match h₁).bind fun handle _ _ hr h₂ => ?_
  refine (seed_match h₂).bind fun seeded _ _ _ h₃ => ?_
  cases seeded with
  | ok _ => exact Match.done h₃ fun y hy => Except.ok.inj hy ▸ hr
  | error f =>
    refine (cleanUp_match h₃).bind fun _ _ _ _ h₄ => ?_
    exact (Handle.drop_match hr h₄).bind fun _ _ _ _ h₅ => Match.done h₅ fun _ hy => nomatch hy

theorem begin_match (h : m.Twin l) : (begin .modern).Match who
    (fun x => ∀ y, x = .ok y → y.handle.registry = .host) (begin .legacy) m l := by
  simp only [begin, Lifecycle.log, access_eq, bind_eq, bind_step, bind_done, pure_eq]
  refine Match.alike h trivial fun h₁ => ?_
  show (if !l.claimed then _ else _ : Program _).Match _ _ (if !l.claimed then _ else _) _ _
  split
  · refine (bringUp_match h₁).bind fun brought _ _ hb h₂ => ?_
    cases brought with
    | ok handle =>
      exact Match.alike h₂ trivial fun h₃ => Match.done h₃ fun y hy =>
        Except.ok.inj hy ▸ hb handle rfl
    | error f =>
      refine Match.alike h₂ trivial fun h₃ => Match.done h₃ ?_
      intro y hy
      cases hy
  · refine Match.done h₁ ?_
    intro y hy
    cases hy

theorem finish_match {x : Session} (hr : x.handle.registry = .host) (h : m.Twin l) :
    (x.finish .modern).Match who (fun _ => True) (x.finish .legacy) m l := by
  simp only [finish, Lifecycle.log, access_eq, bind_eq, bind_step, bind_done]
  refine (cleanUp_match h).bind fun _ _ _ _ h₁ => ?_
  refine (Handle.release_match hr h₁).bind fun handle _ _ hr' h₂ => ?_
  exact Match.alike h₂ trivial fun h₃ => Match.alike h₃ trivial fun h₄ => Handle.drop_match hr' h₄

theorem describe_match {x : Session} (h : m.Twin l) :
    x.describe.Match who (fun _ => True) x.describe m l :=
  (Handle.describe_match h).bind fun _ _ _ _ h₁ => Match.done h₁ trivial

end Session

end CallbackLocks
