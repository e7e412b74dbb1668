import CallbackLocks.Proofs.Concert.Sessions

/-!
# Registrations and removals, beat by beat

Under the lifecycle lock a table comes, or goes, in a fixed order of accesses.

* `Alternates`       registrations and removals in turn, each complete
* `Beat`             where in that order a call is
* `Beat.next`        the beat after an access, if it may come now
* `Beat.Fits`, `Beat.Heard`   what the state of the process and the marks are at a beat
* `Beat.perform`     **an access that may come takes all of this to the next beat**
* `SessionRequest.in_step`   **every call keeps to the order**
-/

namespace CallbackLocks

/-! ## the order -/

/-- Tables of such sizes have come and gone in turn, and what is left is the table of that size.
Callbacks are registered and removed in pairs, each at one registry and while the table is there,
and each line tells the size of the table. -/
inductive Alternates : Option Nat → List Event → Prop
  | nil : Alternates none []
  | register {events : List Event} (h : Alternates none events) (r : Registry) (size : Nat) :
      Alternates (some size) (events ++ registration r size)
  | remove {events : List Event} {size : Nat} (h : Alternates (some size) events) (r : Registry) :
      Alternates none (events ++ removal r size)

/-- Where a call is in the order. -/
inductive Beat where
  /-- it does not have the lifecycle lock -/
  | away
  /-- it has the lock, and the table is of that size -/
  | quiet (size : Option Nat)
  | published (size : Nat)
  | idSet (r : Registry) (size : Nat)
  | registered (r : Registry) (size : Nat)
  | idCleared (r : Registry) (size : Nat)
  | cleared (r : Registry) (size : Nat)
  | withdrawn (r : Registry) (size : Nat)
deriving DecidableEq, Inhabited

/-- The access makes no difference to tables and does not show. -/
def Access.isSilent : Access → Bool
  | takeLifecycle | freeLifecycle | publishTable _ | withdrawTable | setLocking _ _ | setId _ _
  | log (.tableInstalled _) | log (.tableRemoved _) => false
  | _ => true

namespace Beat

/-- the beat after an access in a process with a table of that size -/
def next (table : Option Nat) : Access → Beat → Option Beat
  | .takeLifecycle, away => some (quiet table)
  | .freeLifecycle, quiet _ => some away
  | .publishTable n, quiet none => some (published n)
  | .setId r (some .own), published n => some (idSet r n)
  | .setLocking r (some .own), idSet r' n => if r = r' then some (registered r' n) else none
  | .log (.tableInstalled m), registered _ n => if m = n then some (quiet (some n)) else none
  | .setId r none, quiet (some n) => some (idCleared r n)
  | .setLocking r none, idCleared r' n => if r = r' then some (cleared r' n) else none
  | .withdrawTable, cleared r n => some (withdrawn r n)
  | .log (.tableRemoved m), withdrawn _ n => if m = n then some (quiet none) else none
  | a, b => if a.isSilent then some b else none

/-- the size of the table at a beat -/
def Fits (table : Option Nat) : Beat → Prop
  | away => True
  | quiet size => table = size
  | published n | idSet _ n | registered _ n | idCleared _ n | cleared _ n => table = some n
  | withdrawn _ _ => table = none

/-- the table that the last complete turn has left -/
def turn : Beat → Option Nat
  | quiet size => size
  | away | published _ | idSet _ _ | registered _ _ => none
  | idCleared _ n | cleared _ n | withdrawn _ n => some n

/-- the marks since then -/
def sofar : Beat → List Event
  | away | quiet _ | published _ => []
  | idSet r _ => [.call (.setId r (some .own) true)]
  | registered r _ =>
    [.call (.setId r (some .own) true), .call (.setLocking r (some .own) true)]
  | idCleared r _ => [.call (.setId r none true)]
  | cleared r _ | withdrawn r _ =>
    [.call (.setId r none true), .call (.setLocking r none true)]

/-- What has been heard are complete turns, and the marks since then. -/
def Heard (marks : List Event) (b : Beat) : Prop :=
  ∃ turns, Alternates b.turn turns ∧ marks = turns ++ b.sofar

end Beat

/-- a call keeps to the order, and gives up only where it does not have the lifecycle lock -/
def Watch.beat : Watch Beat where
  allows := fun b a => ∀ table, (b.next table a).isSome = true
  leads := fun b a w b' => b.Fits w.tableSize ∧ b.next w.tableSize a = some b'
  quits := fun b => b = .away

theorem Access.isOnLifecycle_of_isSilent {a : Access} (ha : a.isSilent = true) :
    a.isOnLifecycle = false := by
  rw [isOnLifecycle_eq_false_iff]
  exact ⟨(fun heq => nomatch (heq ▸ ha)), (fun heq => nomatch (heq ▸ ha))⟩

theorem Beat.next_of_silent {a : Access} (ha : a.isSilent = true) (table : Option Nat) (b : Beat) :
    b.next table a = some b := by
  cases a with
  | takeLifecycle | freeLifecycle | publishTable | withdrawTable | setLocking | setId =>
    exact nomatch ha
  | log l =>
    cases l with
    | tableInstalled | tableRemoved => exact nomatch ha
    | _ => rfl
  | _ => rfl

theorem Watch.ignores_silent {a : Access} (ha : a.isSilent = true) (b : Beat) :
    beat.Ignores b a := by
  refine ⟨fun table => ?_, fun w b' ⟨_, hb⟩ => ?_⟩
  · rw [Beat.next_of_silent ha]
    rfl
  · rw [Beat.next_of_silent ha] at hb
    exact (Option.some.inj hb).symm

/-! ## the calls -/

namespace Program

variable {α : Type} {post : Beat → α → Prop} {b : Beat} {size : Option Nat}

theorem Along.beat {a : Access} {next : a.Reply → Program α} (b' : Beat)
    (hb : ∀ table, b.next table a = some b') (h : ∀ r, (next r).Along .beat post b') :
    (step a next).Along .beat post b := by
  refine ⟨fun table => by rw [hb]; rfl, fun who w b'' ⟨_, hl⟩ => ?_⟩
  rw [hb] at hl
  rw [← Option.some.inj hl]
  exact h _

theorem Along.silent {a : Access} {next : a.Reply → Program α} (ha : a.isSilent = true)
    (h : ∀ r, (next r).Along .beat post b) : (step a next).Along .beat post b :=
  Along.skip (Watch.ignores_silent ha b) fun _ _ => h _

theorem Along.take {next : Unit → Program α}
    (h : ∀ size, (next ()).Along .beat post (.quiet size)) :
    (step .takeLifecycle next).Along .beat post .away := by
  refine ⟨fun _ => rfl, fun who w b' ⟨_, hl⟩ => ?_⟩
  rw [← Option.some.inj hl]
  exact h _

theorem Along.free {next : Unit → Program α} (h : (next ()).Along .beat post .away) :
    (step .freeLifecycle next).Along .beat post (.quiet size) :=
  Along.beat .away (fun _ => rfl) fun _ => h

/-- The table that is found has the size that it had when the lock was taken. -/
theorem Along.load {next : Option Nat → Program α}
    (h : (next size).Along .beat post (.quiet size)) :
    (step .loadTable next).Along .beat post (.quiet size) := by
  refine ⟨fun _ => rfl, fun who w b' ⟨hfits, hl⟩ => ?_⟩
  rw [← Option.some.inj hl]
  show (next w.tableSize).Along _ _ _
  rw [show w.tableSize = size from hfits]
  exact h

end Program

namespace Lifecycle

open Program

theorem install_in_step (r : Registry) :
    (install r).Along .beat (fun b _ => b = .away) .away := by
  simp only [install, log, access_eq, bind_eq, bind_step, bind_done, pure_eq]
  refine Along.take fun size => Along.load ?_
  cases size with
  | some n => exact Along.silent rfl fun _ => Along.free rfl
  | none =>
    refine Along.silent rfl fun f => ?_
    cases f with
    | some f => exact Along.silent rfl fun _ => Along.free rfl
    | none =>
      refine Along.silent rfl fun n => ?_
      show (ite (n < maxLocks) _ _ : Program (Option Nat)).Along _ _ _
      split
      · refine Along.beat (.published n) (fun _ => rfl) fun _ => ?_
        refine Along.beat (.idSet r n) (fun _ => rfl) fun _ => ?_
        refine Along.beat (.registered r n) (fun _ => if_pos rfl) fun _ => ?_
        refine Along.silent rfl fun _ => ?_
        refine Along.beat (.quiet (some n)) (fun _ => if_pos rfl) fun _ => ?_
        exact Along.silent rfl fun g => Along.free rfl
      · exact Along.free rfl

theorem remove_in_step (r : Registry) (size : Option Nat) :
    (remove r).Along .beat (fun b _ => ∃ size', b = .quiet size') (.quiet size) := by
  simp only [remove, log, access_eq, bind_eq, bind_step, bind_done]
  refine Along.load ?_
  cases size with
  | none => exact Along.silent rfl fun _ => ⟨_, rfl⟩
  | some n =>
    refine Along.beat (.idCleared r n) (fun _ => rfl) fun _ => ?_
    refine Along.beat (.cleared r n) (fun _ => if_pos rfl) fun _ => ?_
    refine Along.beat (.withdrawn r n) (fun _ => rfl) fun _ => ?_
    exact Along.beat (.quiet none) (fun _ => if_pos rfl) fun _ => ⟨_, rfl⟩

theorem teardown_in_step (r : Registry) :
    (teardown r).Along .beat (fun b _ => b = .away) .away := by
  refine Along.take fun size => (remove_in_step r size).bind fun b _ ⟨size', hb⟩ => ?_
  rw [hb]
  exact Along.free rfl

theorem removeIfCurrent_in_step (r : Registry) (g : Nat) :
    (removeIfCurrent r g).Along .beat (fun b _ => b = .away) .away := by
  have hcurrent : ∀ size, (isCurrent g).Along .beat (fun b _ => b = .quiet size)
      (.quiet size) := by
    intro size
    refine Along.silent rfl fun generation => ?_
    show (ite (generation = g) _ _ : Program Bool).Along _ _ _
    split
    · exact Along.load rfl
    · exact rfl
  have hfree : ∀ b (_ : Unit), (∃ size', b = .quiet size') →
      (access .freeLifecycle).Along .beat (fun b _ => b = .away) b := by
    intro b _ ⟨size', hb⟩
    rw [hb]
    exact Along.free rfl
  refine Along.take fun size => (hcurrent size).bind fun b current hb => ?_
  rw [hb]
  cases current with
  | true => exact (remove_in_step r size).bind hfree
  | false => exact Along.silent rfl fun _ => hfree _ () ⟨size, rfl⟩

theorem lockCount_in_step : lockCount.Along .beat (fun b _ => b = .away) .away :=
  Along.take fun _ => Along.load (Along.free rfl)

end Lifecycle

namespace Handle

open Program

theorem release_in_step (h : Handle) : h.release.Along .beat (fun b _ => b = .away) .away := by
  obtain ⟨r, g⟩ := h
  cases g with
  | none => exact rfl
  | some g => exact (Lifecycle.removeIfCurrent_in_step r g).bind fun _ _ hb => hb

theorem drop_in_step (h : Handle) : h.drop.Along .beat (fun b _ => b = .away) .away :=
  h.release_in_step.bind fun _ _ hb => hb

theorem install_in_step (r : Registry) :
    (install r).Along .beat (fun b _ => b = .away) .away :=
  (Lifecycle.install_in_step r).bind fun _ _ hb => hb

end Handle

theorem TableRequest.in_step (q : TableRequest) :
    q.program.Along .beat (fun b _ => b = .away) .away := by
  cases q with
  | install r => exact (Lifecycle.install_in_step r).bind fun _ _ hb => hb
  | teardown r => exact (Lifecycle.teardown_in_step r).bind fun _ _ hb => hb
  | newHandle r => exact (Handle.install_in_step r).bind fun _ _ hb => hb
  | drop h => exact h.drop_in_step.bind fun _ _ hb => hb
  | uninstall h =>
    have hd := h.drop_in_step
    rw [← h.uninstall_eq_drop] at hd
    exact hd.bind fun _ _ hb => hb
  | lockCount => exact Lifecycle.lockCount_in_step.bind fun _ _ hb => hb

namespace Session

open Program

theorem ignores_host_in_step (a : Access) (ha : a.isOfHost = true) :
    Watch.beat.Ignores .away a := by
  refine Watch.ignores_silent ?_ .away
  cases a with
  | log l =>
    cases l with
    | seeded => rfl
    | _ => exact nomatch ha
  | initHost | startHost | loadErrorStrings | drainErrors | readSeeded => rfl
  | cleanAlgorithms | cleanExtraData | freeErrorStrings => rfl
  | _ => exact nomatch ha

theorem begin_in_step (e : Edition) : (begin e).Along .beat (fun b _ => b = .away) .away := by
  refine Along.silent rfl fun granted => ?_
  show (ite (granted = true) _ _ : Program _).Along _ _ _
  split
  · refine (bringUp_along ignores_host_in_step (Lifecycle.install_in_step .host)
      (fun _ => Handle.drop_in_step _) e).bind fun b up hb => ?_
    rw [hb]
    cases up with
    | ok handle => exact Along.silent rfl fun _ => rfl
    | error f => exact Along.silent rfl fun _ => rfl
  · exact rfl

theorem finish_in_step (e : Edition) (x : Session) :
    (x.finish e).Along .beat (fun b _ => b = .away) .away := by
  refine (cleanUp_along ignores_host_in_step e).bind fun b _ hb => ?_
  rw [hb]
  refine x.handle.release_in_step.bind fun b handle hb => ?_
  rw [hb]
  exact Along.silent rfl fun _ => Along.silent rfl fun _ => handle.drop_in_step

end Session

/-- **Every call keeps to the order.** -/
theorem SessionRequest.in_step (e : Edition) (q : SessionRequest) :
    (q.program e).Along .beat (fun b _ => b = .away) .away := by
  cases q with
  | table q => exact q.in_step.bind fun _ _ hb => hb
  | beginSession =>
    refine (Session.begin_in_step e).bind fun b begun hb => ?_
    cases begun with
    | ok x => exact hb
    | error f => exact hb
  | finishSession x => exact (Session.finish_in_step e x).bind fun _ _ hb => hb

/-! ## what an access does -/

/-- A silent access leaves the table and the marks as they are. -/
theorem Access.perform_of_silent {a : Access} (ha : a.isSilent = true) (who : Thread) (w : World) :
    (a.perform who w).2.tableSize = w.tableSize ∧ (a.perform who w).2.marks = w.marks := by
  cases a with
  | takeLifecycle | freeLifecycle | publishTable | withdrawTable | setLocking | setId =>
    exact nomatch ha
  | log l =>
    cases l with
    | tableInstalled | tableRemoved => exact nomatch ha
    | _ =>
      refine ⟨rfl, ?_⟩
      simp [Access.perform, World.saw, World.marks, Event.isMark]
  | countLocks | readLocking | startHost | loadErrorStrings =>
    refine ⟨rfl, ?_⟩
    simp [Access.perform, World.saw, World.setQueue, World.marks, Event.isMark]
  | cleanAlgorithms | cleanExtraData | freeErrorStrings =>
    refine ⟨rfl, ?_⟩
    simp [Access.perform, World.saw, World.marks, Event.isMark]
  | loadTable | countInstall | readGeneration | claim | unclaim => exact ⟨rfl, rfl⟩
  | initHost | drainErrors | readSeeded => exact ⟨rfl, rfl⟩

theorem Access.perform_setId (who : Thread) (w : World) (r : Registry) (f : Option IdCallback) :
    ((setId r f).perform who w).2.tableSize = w.tableSize ∧
    ((setId r f).perform who w).2.marks = w.marks ++ [.call (.setId r f w.isInstalled)] := by
  simp [Access.perform, World.tableSize, World.marks, World.saw, Event.isMark]

theorem Access.perform_setLocking (who : Thread) (w : World) (r : Registry)
    (f : Option LockCallback) :
    ((setLocking r f).perform who w).2.tableSize = w.tableSize ∧
    ((setLocking r f).perform who w).2.marks =
      w.marks ++ [.call (.setLocking r f w.isInstalled)] := by
  simp [Access.perform, World.tableSize, World.marks, World.saw, Event.isMark]

theorem Access.perform_log (who : Thread) (w : World) {l : LogLine}
    (hl : (Event.log l).isMark = true) :
    ((Access.log l).perform who w).2.tableSize = w.tableSize ∧
    ((Access.log l).perform who w).2.marks = w.marks ++ [.log l] := by
  simp [Access.perform, World.tableSize, World.marks, World.saw, hl]

namespace Beat

variable {w : World} {a : Access} {b b' : Beat} {marks : List Event}

theorem Heard.mark (h : b.Heard marks) {event : Event} (ht : b'.turn = b.turn)
    (hs : b'.sofar = b.sofar ++ [event]) : b'.Heard (marks ++ [event]) := by
  obtain ⟨turns, hturns, rfl⟩ := h
  exact ⟨turns, ht ▸ hturns, by rw [hs, List.append_assoc]⟩

/-- The mark that completes a turn is heard. -/
theorem Heard.complete (h : b.Heard marks) {event : Event} {size : Option Nat} {events : List Event}
    (hs : b.sofar ++ [event] = events)
    (ht : ∀ {turns}, Alternates b.turn turns → Alternates size (turns ++ events)) :
    (quiet size).Heard (marks ++ [event]) := by
  obtain ⟨turns, hturns, rfl⟩ := h
  refine ⟨turns ++ events, ht hturns, ?_⟩
  rw [← hs, List.append_assoc]
  exact (List.append_nil _).symm

/-- A call that has the lifecycle lock gives it back between turns only. -/
theorem eq_quiet_of_next {table : Option Nat} (hn : b.next table .freeLifecycle = some b') :
    b' = .away ∧ ∃ size, b = .quiet size := by
  cases b with
  | quiet size => exact ⟨(Option.some.inj hn).symm, size, rfl⟩
  | _ => exact nomatch hn

theorem isInstalled_of_size {n : Nat} (h : w.tableSize = some n) : w.isInstalled = true := by
  rw [World.isInstalled_eq, h]
  rfl

/-- A call that does not have the lifecycle lock takes it, or does what does not show. -/
theorem isSilent_of_away {table : Option Nat} (hn : away.next table a = some b')
    (htake : a ≠ .takeLifecycle) : a.isSilent = true ∧ b' = .away := by
  unfold next at hn
  split at hn
  case h_1 => exact absurd rfl htake
  case h_11 =>
    split at hn
    · rename_i ha
      exact ⟨ha, (Option.some.inj hn).symm⟩
    · exact nomatch hn
  all_goals simp_all

/-- **An access that may come takes the process to the next beat.** -/
theorem perform (who : Thread) (hn : b.next w.tableSize a = some b') (hb : b ≠ .away)
    (hfree : a ≠ .freeLifecycle) (hf : b.Fits w.tableSize) (hh : b.Heard w.marks) :
    b' ≠ .away ∧ b'.Fits (a.perform who w).2.tableSize ∧ b'.Heard (a.perform who w).2.marks := by
  -- one case for each line of `next`, in its order
  unfold next at hn
  split at hn
  case h_1 => exact absurd rfl hb
  case h_2 => exact absurd rfl hfree
  case h_3 n =>
    rw [← Option.some.inj hn]
    refine ⟨(fun heq => nomatch heq), ?_, hh⟩
    show some (LockTable.new n).size = some n
    rw [LockTable.size_new]
  case h_4 r n =>
    obtain ⟨hsize, hmarks⟩ := Access.perform_setId who w r (some .own)
    rw [← Option.some.inj hn, hsize, hmarks, isInstalled_of_size hf]
    exact ⟨(fun heq => nomatch heq), hf, hh.mark rfl rfl⟩
  case h_5 r r' n =>
    obtain ⟨hsize, hmarks⟩ := Access.perform_setLocking who w r (some .own)
    split at hn
    · rename_i hr
      rw [← Option.some.inj hn, hsize, hmarks, isInstalled_of_size hf, hr]
      exact ⟨(fun heq => nomatch heq), hf, hh.mark rfl rfl⟩
    · exact nomatch hn
  case h_6 m r n =>
    obtain ⟨hsize, hmarks⟩ := Access.perform_log who w (l := .tableInstalled m) rfl
    split at hn
    · rename_i hm
      rw [← Option.some.inj hn, hsize, hmarks, hm]
      exact ⟨(fun heq => nomatch heq), hf, hh.complete rfl fun h => h.register r n⟩
    · exact nomatch hn
  case h_7 r n =>
    obtain ⟨hsize, hmarks⟩ := Access.perform_setId who w r none
    rw [← Option.some.inj hn, hsize, hmarks, isInstalled_of_size hf]
    exact ⟨(fun heq => nomatch heq), hf, hh.mark rfl rfl⟩
  case h_8 r r' n =>
    obtain ⟨hsize, hmarks⟩ := Access.perform_setLocking who w r none
    split at hn
    · rename_i hr
      rw [← Option.some.inj hn, hsize, hmarks, isInstalled_of_size hf, hr]
      exact ⟨(fun heq => nomatch heq), hf, hh.mark rfl rfl⟩
    · exact nomatch hn
  case h_9 r n =>
    rw [← Option.some.inj hn]
    exact ⟨(fun heq => nomatch heq), rfl, hh⟩
  case h_10 m r n =>
    obtain ⟨hsize, hmarks⟩ := Access.perform_log who w (l := .tableRemoved m) rfl
    split at hn
    · rename_i hm
      rw [← Option.some.inj hn, hsize, hmarks, hm]
      exact ⟨(fun heq => nomatch heq), hf, hh.complete rfl fun h => h.remove r⟩
    · exact nomatch hn
  case h_11 =>
    split at hn
    · rename_i ha
      obtain ⟨hsize, hmarks⟩ := Access.perform_of_silent ha who w
      rw [← Option.some.inj hn, hsize, hmarks]
      exact ⟨hb, hf, hh⟩
    · exact nomatch hn

end Beat

end CallbackLocks
