import Mathlib
import CallbackLocks.Proofs.Alone.Calls
import CallbackLocks.Proofs.Concert.Serial

/-!
# Serializability

Calls about tables, made by any number of threads access by access, come to what they come to one at
a time, in the order in which they have taken the lifecycle lock.

* `Ended.made`       the sizes of the tables that a call has made
* `Lifecycle.install_alone_of_vacant`, `teardown_alone`   what shows of a call that is alone
* `Concert.oneAtATime_of_vacant`, `oneAtATime_of_size`   calls for the same, one after another
* `Concert.Serial.ended_iff`   what has come of the calls that had their turn
* `Concert.Serial.one_owner`, `one_removal`   threads that race
* `Concert.calls_come_one_at_a_time`   **all of it**
-/

namespace CallbackLocks

open Program

/-! ## what is made for a call -/

/-- the size of the table that an access makes -/
def Act.size? : Act → Option Nat
  | ⟨.publishTable size, _⟩ => some size
  | _ => none

def Ended.made {S : Service} (e : Ended S) : List Nat := e.acts.filterMap Act.size?

variable {w : World} {r : Registry}

theorem World.marks_see (w : World) (es : List Event) :
    (w.see es).marks = w.marks ++ es.filter Event.isMark := by
  rw [World.see_eq]
  exact List.filter_append ..

namespace Lifecycle

/-! ## a call that is alone -/

/-- Where nothing is installed, a call of install makes one table, which shows so once. -/
theorem install_alone_of_vacant (h : w.IsVacant r) (who : Thread) : ∃ w',
    (install r).run who w = (.ok (some (w.generation + 1)), w') ∧
    ((install r).history who w).filterMap Act.size? = [w.lockCount r] ∧
    w'.table = some (.new (w.lockCount r)) ∧ w'.generation = w.generation + 1 ∧
    w'.marks = w.marks ++ registration r (w.lockCount r) := by
  have hload : (Access.loadTable.perform who (Access.takeLifecycle.perform who w).2).1 = none :=
    congrArg (Option.map LockTable.size) h.table
  have hread : ((Access.readLocking r).perform who (Access.loadTable.perform who
      (Access.takeLifecycle.perform who w).2).2).1 = none := h.locking
  refine ⟨_, run_install_of_vacant h who, ?_, ?_, ?_, ?_⟩
  · simp only [install, log, access_eq, bind_eq, bind_step, bind_done, pure_eq, history_step,
      hload, hread]
    show List.filterMap Act.size? (_ :: _ :: _ :: _ ::
      (if w.lockCount r < maxLocks then _ else _ : Program (Option Nat)).history _ _) = _
    rw [if_pos h.count]
    rfl
  · simp [World.see_eq, World.equip, World.freed, World.lockCount]
  · simp [World.see_eq, World.equip, World.freed]
  · rw [World.marks_see]
    simp [World.marks, World.equip, World.freed, registration, Event.isMark]

theorem install_alone_of_installed (h : w.isInstalled = true) (who : Thread) : ∃ w',
    (install r).run who w = (.ok none, w') ∧
    ((install r).history who w).filterMap Act.size? = [] ∧
    w'.table = w.table ∧ w'.generation = w.generation ∧ w'.marks = w.marks := by
  obtain ⟨table, ht⟩ := Option.isSome_iff_exists.mp h
  have hload : (Access.loadTable.perform who (Access.takeLifecycle.perform who w).2).1
      = some table.size := congrArg (Option.map LockTable.size) ht
  refine ⟨_, run_install_of_table ht who, ?_, rfl, rfl, ?_⟩
  · simp only [install, log, access_eq, bind_eq, bind_step, bind_done, pure_eq, history_step, hload]
    rfl
  · rw [World.marks_see]
    exact List.append_nil _

theorem teardown_alone (r : Registry) (who : Thread) (w : World) : ∃ w',
    (teardown r).run who w = (.ok (), w') ∧ w'.table = none ∧
      w'.marks = w.marks ++ w.tableSize.toList.flatMap (removal r) := by
  refine ⟨_, run_teardown r who w, ?_, ?_⟩
  · rw [World.see_eq]
    show World.table (if w.isInstalled then _ else _) = none
    split
    · rfl
    · rename_i hin
      exact Option.not_isSome_iff_eq_none.mp hin
  · have hmarks : World.marks (if w.isInstalled then w.freed.strip r else w.freed) = w.marks := by
      split
      · simp [World.marks, World.strip, World.freed]
      · rfl
    rw [World.marks_see, hmarks, World.removing]
    cases w.tableSize <;> rfl

end Lifecycle

namespace Concert

/-! ## threads that race -/

variable {c : Task tables} {cs : List (Task tables)}

theorem alone_newHandle (hq : c.request = .newHandle r) {g : Option Nat} {w' : World}
    (hrun : (Lifecycle.install r).run c.thread w = (.ok g, w')) :
    (alone c w).result = .ok (.handle ⟨r, g⟩) ∧
    (alone c w).made = ((Lifecycle.install r).history c.thread w).filterMap Act.size? ∧
    ((tables.program c.request).run c.thread w).2 = w' := by
  have hprog : TableRequest.program c.request = (Lifecycle.install r).bind fun g =>
      done (.handle ⟨r, g⟩) := by
    rw [hq]
    exact bind_assoc ..
  simp only [alone, Ended.made, hprog, run_bind, history_bind, hrun]
  refine ⟨rfl, ?_, rfl⟩
  show List.filterMap Act.size? (_ ++ []) = _
  rw [List.append_nil]

/-- Where a table is installed, calls that ask for handles get some that stand for nothing. -/
theorem oneAtATime_of_installed (hq : ∀ c ∈ cs, c.request = .newHandle r)
    (h : w.isInstalled = true) :
    (∀ e ∈ (oneAtATime cs w).1, e.result = .ok (.handle ⟨r, none⟩) ∧ e.made = []) ∧
    (oneAtATime cs w).2.table = w.table ∧ (oneAtATime cs w).2.generation = w.generation ∧
    (oneAtATime cs w).2.marks = w.marks := by
  induction cs generalizing w with
  | nil => exact ⟨fun e he => absurd he List.not_mem_nil, rfl, rfl, rfl⟩
  | cons c cs ih =>
    obtain ⟨w', hrun, hmade, ht, hg, hm⟩ := Lifecycle.install_alone_of_installed (r := r) h c.thread
    obtain ⟨hres, hmade', hw⟩ := alone_newHandle (hq c List.mem_cons_self) hrun
    have hin : w'.isInstalled = true := by
      rw [World.isInstalled, ht]
      exact h
    have hrest := ih (fun c' hc' => hq c' (List.mem_cons_of_mem c hc')) hin
    rw [← hw] at hrest ht hg hm
    refine ⟨fun e he => ?_, hrest.2.1.trans ht, hrest.2.2.1.trans hg, hrest.2.2.2.trans hm⟩
    rcases List.mem_cons.mp he with rfl | he
    · exact ⟨hres, hmade'.trans hmade⟩
    · exact hrest.1 e he

/-- Where nothing is installed, the first call that asks for a handle installs a table. -/
theorem oneAtATime_of_vacant (hq : ∀ c' ∈ c :: cs, c'.request = .newHandle r)
    (h : w.IsVacant r) :
    ((alone c w).result = .ok (.handle ⟨r, some (w.generation + 1)⟩) ∧
      (alone c w).made = [w.lockCount r]) ∧
    (∀ e ∈ (oneAtATime (c :: cs) w).1, e = alone c w ∨ e.task ∈ cs ∧
      e.result = .ok (.handle ⟨r, none⟩) ∧ e.made = []) ∧
    (oneAtATime (c :: cs) w).2.table = some (.new (w.lockCount r)) ∧
    (oneAtATime (c :: cs) w).2.generation = w.generation + 1 ∧
    (oneAtATime (c :: cs) w).2.marks = w.marks ++ registration r (w.lockCount r) := by
  obtain ⟨w', hrun, hmade, ht, hg, hm⟩ := Lifecycle.install_alone_of_vacant h c.thread
  obtain ⟨hres, hmade', hw⟩ := alone_newHandle (hq c List.mem_cons_self) hrun
  have hin : w'.isInstalled = true := by
    rw [World.isInstalled, ht]
    rfl
  have hrest := oneAtATime_of_installed (fun c' hc' => hq c' (List.mem_cons_of_mem c hc')) hin
  rw [← hw] at hrest ht hg hm
  refine ⟨⟨hres, hmade'.trans hmade⟩, fun e he => ?_, hrest.2.1.trans ht, hrest.2.2.1.trans hg,
    hrest.2.2.2.trans hm⟩
  rcases List.mem_cons.mp he with rfl | he
  · exact .inl rfl
  · refine .inr ⟨?_, hrest.1 e he⟩
    rw [← map_task_oneAtATime cs]
    exact List.mem_map_of_mem he

theorem run_teardown (hq : c.request = .teardown r) {w' : World}
    (hrun : (Lifecycle.teardown r).run c.thread w = (.ok (), w')) :
    ((tables.program c.request).run c.thread w).2 = w' := by
  have hprog : tables.program c.request = (Lifecycle.teardown r).bind fun _ => done .nothing := by
    rw [hq]
    rfl
  rw [hprog, run_bind, hrun]
  rfl

theorem oneAtATime_of_none (hq : ∀ c ∈ cs, ∃ r, c.request = .teardown r) (h : w.table = none) :
    (oneAtATime cs w).2.table = none ∧ (oneAtATime cs w).2.marks = w.marks := by
  induction cs generalizing w with
  | nil => exact ⟨h, rfl⟩
  | cons c cs ih =>
    obtain ⟨r, hr⟩ := hq c List.mem_cons_self
    obtain ⟨w', hrun, ht, hm⟩ := Lifecycle.teardown_alone r c.thread w
    rw [World.tableSize, h, Option.map_none, Option.toList_none, List.flatMap_nil,
      List.append_nil] at hm
    have hw := run_teardown hr hrun
    have hrest := ih (fun c' hc' => hq c' (List.mem_cons_of_mem c hc')) ht
    rw [← hw] at hrest hm
    exact ⟨hrest.1, hrest.2.trans hm⟩

/-- Where a table is installed, the first call of teardown removes it. -/
theorem oneAtATime_of_size {n : Nat} (hq : ∀ c' ∈ c :: cs, ∃ r, c'.request = .teardown r)
    (hr : c.request = .teardown r) (h : w.tableSize = some n) :
    (oneAtATime (c :: cs) w).2.table = none ∧
      (oneAtATime (c :: cs) w).2.marks = w.marks ++ removal r n := by
  obtain ⟨w', hrun, ht, hm⟩ := Lifecycle.teardown_alone r c.thread w
  rw [h, Option.toList_some, List.flatMap_cons, List.flatMap_nil, List.append_nil] at hm
  have hw := run_teardown hr hrun
  have hrest := oneAtATime_of_none (fun c' hc' => hq c' (List.mem_cons_of_mem c hc')) ht
  rw [← hw] at hrest hm
  exact ⟨hrest.1, hrest.2.trans hm⟩

/-! ## calls in concert -/

variable {s : Concert tables}

/-- When all is done, a call that makes any access has taken the lifecycle lock. -/
theorem Serial.mem_served (h : Serial w s) (hs : Tidy s) (hd : s.IsDone) (hc : c ∈ s.tasks)
    (hstep : ∀ x, tables.program c.request ≠ ofResult x) : c ∈ s.served := by
  obtain ⟨e, he, rfl⟩ := hs.exists_ended hd hc
  rcases h.ended e he with hone | ⟨-, -, hprog⟩
  · rw [← map_task_oneAtATime s.served w]
    exact List.mem_map_of_mem hone
  · exact absurd hprog (hstep e.result)

theorem Serial.mem_oneAtATime (h : Serial w s) {e : Ended tables} (he : e ∈ s.ended)
    (hserved : e.task ∈ s.served) : e ∈ (oneAtATime s.served w).1 :=
  (h.ended e he).resolve_right fun hidle => hidle.2.1 hserved

/-- When all is done, what has come of the calls is what comes of them one at a time. -/
theorem Serial.ended_iff (h : Serial w s) (hs : Tidy s) (hd : s.IsDone) (e : Ended tables) :
    e ∈ s.ended ∧ e.task ∈ s.served ↔ e ∈ (oneAtATime s.served w).1 := by
  refine ⟨fun ⟨he, hserved⟩ => h.mem_oneAtATime he hserved, fun he => ?_⟩
  have hserved : e.task ∈ s.served := by
    rw [← map_task_oneAtATime s.served w]
    exact List.mem_map_of_mem he
  obtain ⟨e', he', heq⟩ := hs.exists_ended hd (hs.served _ hserved)
  have hone := h.mem_oneAtATime he' (heq ▸ hserved)
  have hnodup : ((oneAtATime s.served w).1.map Ended.task).Nodup := by
    rw [map_task_oneAtATime]
    exact h.once
  obtain rfl := List.inj_on_of_nodup_map hnodup hone he heq
  exact ⟨he', hserved⟩

/-- Of threads that race to install a table, one does. -/
theorem Serial.one_owner (h : Serial w s) (hs : Tidy s) (hd : s.IsDone) (hr : w.IsVacant r)
    (hne : s.tasks ≠ []) (hq : ∀ c ∈ s.tasks, c.request = .newHandle r) :
    s.world.table = some (.new (w.lockCount r)) ∧ s.world.generation = w.generation + 1 ∧
    s.world.marks = w.marks ++ registration r (w.lockCount r) ∧
    ∃ c ∈ s.tasks, ∀ e ∈ s.ended, ∃ h, e.result = .ok (.handle h) ∧ h.registry = r ∧
      (∀ t, (h.owns.run t s.world).1 = .ok true ↔ e.task = c) ∧
      (e.task = c → e.made = [w.lockCount r]) ∧ (e.task ≠ c → e.made = []) := by
  have hserved : ∀ c ∈ s.tasks, c ∈ s.served := by
    intro c hc
    refine h.mem_served hs hd hc fun x => ?_
    rw [hq c hc]
    exact step_ne_ofResult
  have hfree : s.world.lifecycle = none := h.lifecycle_eq_none hd
  have hw := h.free hfree
  obtain ⟨c', cs, hcons⟩ : ∃ c cs, s.served = c :: cs := by
    obtain ⟨c, hc⟩ := List.exists_mem_of_ne_nil _ hne
    exact List.exists_cons_of_ne_nil (List.ne_nil_of_mem (hserved c hc))
  have hc' : c' ∈ s.tasks := hs.served c' (hcons ▸ List.mem_cons_self)
  have hnodup := h.once
  rw [hcons, List.nodup_cons] at hnodup
  have hq' : ∀ c ∈ c' :: cs, c.request = .newHandle r :=
    fun c hc => hq c (hs.served c (hcons ▸ hc))
  obtain ⟨⟨hres, hmade⟩, hrest, ht, hg, hm⟩ := oneAtATime_of_vacant hq' hr
  rw [← hcons, ← hw] at ht hg hm
  refine ⟨ht, hg, hm, c', hc', fun e he => ?_⟩
  have hin : s.world.isInstalled = true := by
    rw [World.isInstalled, ht]
    rfl
  have hone := h.mem_oneAtATime he (hserved _ (hs.ended e he))
  rw [hcons] at hone
  rcases hrest e hone with rfl | ⟨hmem, hres', hmade'⟩
  · refine ⟨_, hres, rfl, fun t => ?_, fun _ => hmade, fun hne => absurd rfl hne⟩
    rw [Handle.run_owns, hg, hin]
    simp [alone]
  · have hne : e.task ≠ c' := fun heq => hnodup.1 (heq ▸ hmem)
    refine ⟨_, hres', rfl, fun t => ?_, fun heq => absurd heq hne, fun _ => hmade'⟩
    rw [Handle.run_owns]
    simp [hne]

theorem Serial.one_removal (h : Serial w s) (hs : Tidy s) (hd : s.IsDone) (hne : s.tasks ≠ [])
    (hq : ∀ c ∈ s.tasks, ∃ r, c.request = .teardown r) :
    s.world.table = none ∧ (w.table = none → s.world.marks = w.marks) ∧
    ∀ n, w.tableSize = some n → ∃ c ∈ s.tasks, ∃ r, c.request = .teardown r ∧
      s.world.marks = w.marks ++ removal r n := by
  have hserved : ∀ c ∈ s.tasks, c ∈ s.served := by
    intro c hc
    refine h.mem_served hs hd hc fun x => ?_
    obtain ⟨r, hr⟩ := hq c hc
    rw [hr]
    exact step_ne_ofResult
  have hw := h.free (h.lifecycle_eq_none hd)
  obtain ⟨c', cs, hcons⟩ : ∃ c cs, s.served = c :: cs := by
    obtain ⟨c, hc⟩ := List.exists_mem_of_ne_nil _ hne
    exact List.exists_cons_of_ne_nil (List.ne_nil_of_mem (hserved c hc))
  have hc' : c' ∈ s.tasks := hs.served c' (hcons ▸ List.mem_cons_self)
  have hq' : ∀ c ∈ c' :: cs, ∃ r, c.request = .teardown r :=
    fun c hc => hq c (hs.served c (hcons ▸ hc))
  obtain ⟨r, hr⟩ := hq c' hc'
  rw [hw, hcons]
  cases ht : w.table with
  | none =>
    obtain ⟨ht', hm⟩ := oneAtATime_of_none hq' ht
    refine ⟨ht', fun _ => hm, fun n hn => ?_⟩
    rw [World.tableSize, ht] at hn
    cases hn
  | some table =>
    have hsize : w.tableSize = some table.size := by
      rw [World.tableSize, ht]
      rfl
    obtain ⟨ht', hm⟩ := oneAtATime_of_size hq' hr hsize
    refine ⟨ht', fun hnone => absurd hnone (Option.some_ne_none table),
      fun n hn => ⟨c', hc', r, hr, ?_⟩⟩
    rw [hm, Option.some.inj (hn.symm.trans hsize)]

/-- **Calls come to what they come to one at a time.**  Any threads make calls about tables, access
by access and in any order, and all calls have returned or given up.  Then the process is as it
would be after the same calls one at a time, in the order in which they have taken the lifecycle
lock; each of these has made the accesses, got the replies and returned what it would then; and
each of the others has done nothing.  So of threads that race for a table one gets it, and of
threads that race to remove one, one does.  Installations are counted one by one, which the word
that counts them allows below `2 ^ 64` of them. -/
theorem calls_come_one_at_a_time (hw : w.lifecycle = none) (kept : List TableResult)
    {moves : List (Move tables)} (hown : ∀ m ∈ moves, m.isOwn = true)
    (hs : run moves (opened tables w kept) = s) (hd : s.IsDone) :
    (s.world = (oneAtATime s.served w).2 ∧ s.world.lifecycle = none) ∧
    (s.served.Nodup ∧ (s.ended.map Ended.task).Nodup ∧
      ∀ c, c ∈ s.tasks ↔ ∃ e ∈ s.ended, e.task = c) ∧
    (∀ e, e ∈ s.ended ∧ e.task ∈ s.served ↔ e ∈ (oneAtATime s.served w).1) ∧
    (∀ e ∈ s.ended, e.task ∉ s.served → e.acts = [] ∧ e.result = .ok .nothing) ∧
    (∀ r, w.IsVacant r → s.tasks ≠ [] → (∀ c ∈ s.tasks, c.request = .newHandle r) →
      s.world.table = some (.new (w.lockCount r)) ∧ s.world.generation = w.generation + 1 ∧
      s.world.marks = w.marks ++ registration r (w.lockCount r) ∧
      ∃ c ∈ s.tasks, ∀ e ∈ s.ended, ∃ h, e.result = .ok (.handle h) ∧ h.registry = r ∧
        (∀ t, (h.owns.run t s.world).1 = .ok true ↔ e.task = c) ∧
        (e.task = c → e.made = [w.lockCount r]) ∧ (e.task ≠ c → e.made = [])) ∧
    (s.tasks ≠ [] → (∀ c ∈ s.tasks, ∃ r, c.request = .teardown r) →
      s.world.table = none ∧ (w.table = none → s.world.marks = w.marks) ∧
      ∀ n, w.tableSize = some n → ∃ c ∈ s.tasks, ∃ r, c.request = .teardown r ∧
        s.world.marks = w.marks ++ removal r n) := by
  have hopened : Tidy (opened tables w kept) := tidy_opened w _
  have htidy : Tidy s := hs ▸ hopened.run moves
  have h : Serial w s := hs ▸ (serial_opened hw kept).run hopened TableRequest.guarded hown
  have hfree := h.lifecycle_eq_none hd
  refine ⟨⟨h.free hfree, hfree⟩, ⟨h.once, htidy.once, fun c => ⟨htidy.exists_ended hd, ?_⟩⟩,
    h.ended_iff htidy hd, fun e he hidle => ?_, fun r hr hne hq => ?_, fun hne hq => ?_⟩
  · rintro ⟨e, he, rfl⟩
    exact htidy.ended e he
  · rcases h.ended e he with hone | ⟨hacts, -, hprog⟩
    · exact absurd ((h.ended_iff htidy hd e).mpr hone).2 hidle
    · exact ⟨hacts, TableRequest.eq_nothing_of_program_eq hprog⟩
  · exact h.one_owner htidy hd hr hne hq
  · exact h.one_removal htidy hd hne hq

/-- Two threads race for a table; the one that comes second takes the lifecycle lock first. -/
def race : List (Move tables) :=
  [Move.start (.worker 0) (TableRequest.newHandle (.recorder 0)),
    Move.start (.worker 1) (TableRequest.newHandle (.recorder 0))] ++
    List.replicate 2 (Move.go (.worker 1)) ++ List.replicate 4 (Move.go (.worker 0)) ++
    List.replicate 12 (Move.go (.worker 1)) ++ List.replicate 5 (Move.go (.worker 0))

theorem calls_come_one_at_a_time_race : ∃ s : Concert tables,
    run race (opened tables (.initial .legacy (fun _ => 2) 3) []) = s ∧ s.IsDone ∧
    s.served.map Task.thread = [.worker 1, .worker 0] ∧
    s.world = (oneAtATime s.served (.initial .legacy (fun _ => 2) 3)).2 ∧
    s.world.marks = registration (.recorder 0) 2 := by
  have hd : (run race (opened tables (.initial .legacy (fun _ => 2) 3) [])).IsDone :=
    ((tidy_opened _ _).run race).isDone_of_length (by cbv)
  have htasks : (run race (opened tables (.initial .legacy (fun _ => 2) 3) [])).tasks =
      [⟨0, .worker 0, .newHandle (.recorder 0)⟩, ⟨1, .worker 1, .newHandle (.recorder 0)⟩] := rfl
  have hvacant : (World.initial .legacy (fun _ => 2) 3).IsVacant (.recorder 0) :=
    ⟨rfl, rfl, by decide⟩
  have h := calls_come_one_at_a_time rfl [] (by decide) rfl hd
  have hone := h.2.2.2.2.1 (.recorder 0) hvacant (by simp [htasks]) (by simp [htasks])
  exact ⟨_, rfl, hd, by cbv, h.1.1, hone.2.2.1⟩

end Concert

end CallbackLocks
