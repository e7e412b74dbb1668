import CallbackLocks.Proofs.Locks
import CallbackLocks.Proofs.Tally

/-!
# A lock keeps the threads of a contest apart

The threads of a contest take a lock, read a counter, write the value read plus one, and give the
lock back, in any order of steps and whichever thread of the line is served.

* `Orderly goal pending l c`   the invariant, for the lock `l` that is contended for: as many
                     contestants have it as it is held, less `pending` hand-overs under way; the
                     counter and the increments to come make up `goal`; whoever has read the
                     counter has read what it still is; the line is made of those that wait
* `Orderly.put`      what a change of one contestant has to come with to keep the invariant
* `Orderly.step`     every step succeeds and keeps the invariant, and a step of a contestant that
                     is neither waiting nor finished brings the contest forward
* `counter_of_follow`   what this comes to for a whole schedule
-/

namespace CallbackLocks

namespace Contest

/-! ## the invariant -/

/-- The line of the lock is made of the contestants that wait, each of them once. -/
def Queued (l : Lock) (c : Contest) : Prop :=
  ∃ q : List Nat, l.line = q.map Thread.racer ∧ q.Nodup ∧
    ∀ j, j ∈ q ↔ ∃ k, c.contestants[j]? = some k ∧ k.phase = .waiting

/-- The lock is `l`, with `pending` hand-overs under way, and the counter is to reach `goal`. -/
structure Orderly (goal pending : Nat) (l : Lock) (c : Contest) : Prop where
  held : c.total Contestant.hasLock + pending = l.isHeld.toNat
  counter : c.counter + c.total Contestant.toWrite = goal
  inside : c.inside = c.total Contestant.isInside
  peak : c.peak ≤ 1
  seen : ∀ (i : Nat) (k : Contestant) (v : Nat), c.contestants[i]? = some k →
    k.phase = .read v → v = c.counter
  rounds : ∀ (i : Nat) (k : Contestant), c.contestants[i]? = some k → k.rounds = 0 →
    k.phase = .outside
  queue : Queued l c

/-- contestant `i` has the lock -/
def HasLock (c : Contest) (i : Nat) : Prop :=
  ∃ k, c.contestants[i]? = some k ∧ k.phase.hasLock = true

/-- contestant `i` has rounds to finish, and does not wait -/
def CanMove (c : Contest) (i : Nat) : Prop :=
  ∃ k, c.contestants[i]? = some k ∧ k.phase ≠ .waiting ∧ k.rounds ≠ 0

variable {goal p p' : Nat} {l l' : Lock} {c : Contest} {i : Nat} {k k' : Contestant}

/-! ## the line -/

theorem Queued.put_of_not_waiting (h : Queued l c) (hk : c.contestants[i]? = some k)
    (hw : k.phase ≠ .waiting) (hw' : k'.phase ≠ .waiting) (hl : l'.line = l.line) :
    Queued l' (c.put i k') := by
  obtain ⟨q, hq, hnd, hmem⟩ := h
  refine ⟨q, hl.trans hq, hnd, fun j => ?_⟩
  rw [hmem j]
  by_cases hij : i = j
  · subst hij
    rw [hk, getElem?_put_self hk]
    simp [hw, hw']
  · rw [getElem?_put_of_ne c hij]

theorem Queued.put_waiting {ws : List Thread} (h : Queued (.held ws) c)
    (hk : c.contestants[i]? = some k) (hw : k.phase ≠ .waiting) (hw' : k'.phase = .waiting) :
    Queued (.held (ws ++ [.racer i])) (c.put i k') := by
  obtain ⟨q, hq, hnd, hmem⟩ := h
  have hiq : i ∉ q := by
    rw [hmem i]
    rintro ⟨m, hm, hmw⟩
    rw [hk, Option.some.injEq] at hm
    exact hw (hm ▸ hmw)
  refine ⟨q ++ [i], ?_, ?_, fun j => ?_⟩
  · rw [Lock.line_held] at hq ⊢
    rw [hq, List.map_append, List.map_singleton]
  · rw [List.nodup_append]
    refine ⟨hnd, by simp, ?_⟩
    intro a ha b hb hab
    rw [List.mem_singleton] at hb
    exact hiq (hb ▸ hab ▸ ha)
  · rw [List.mem_append, hmem j, List.mem_singleton]
    by_cases hij : i = j
    · subst hij
      rw [getElem?_put_self hk]
      simp [hw']
    · rw [getElem?_put_of_ne c hij]
      simp [Ne.symm hij]

/-- The thread that is served is a contestant that waits, and the line is then without it. -/
theorem Queued.serve {ws : List Thread} {place : Nat} {w : Thread} (h : Queued (.held ws) c)
    (hw : ws[place]? = some w) :
    ∃ j m, w = .racer j ∧ c.contestants[j]? = some m ∧ m.phase = .waiting ∧
      ∀ m' : Contestant, m'.phase ≠ .waiting → Queued (.held (ws.eraseIdx place)) (c.put j m') := by
  obtain ⟨q, hq, hnd, hmem⟩ := h
  rw [Lock.line_held] at hq
  subst hq
  rw [List.getElem?_map, Option.map_eq_some_iff] at hw
  obtain ⟨j, hj, rfl⟩ := hw
  obtain ⟨m, hm, hmw⟩ := (hmem j).mp (List.mem_of_getElem? hj)
  refine ⟨j, m, rfl, hm, hmw, fun m' hm' => ⟨q.eraseIdx place, ?_, hnd.eraseIdx place, ?_⟩⟩
  · rw [Lock.line_held, List.eraseIdx_eq_take_drop_succ, List.eraseIdx_eq_take_drop_succ,
      List.map_append, List.map_take, List.map_drop]
  · intro i
    rw [List.mem_eraseIdx_iff_getElem?]
    by_cases hij : j = i
    · subst hij
      rw [getElem?_put_self hm]
      constructor
      · rintro ⟨r, hne, hr⟩
        have hlt := (List.getElem?_eq_some_iff.mp hr).1
        exact absurd ((List.getElem?_inj hlt hnd).mp (hr.trans hj.symm)) hne
      · rintro ⟨m'', hm'', hw''⟩
        rw [Option.some.injEq] at hm''
        exact absurd hw'' (hm'' ▸ hm')
    · rw [getElem?_put_of_ne c hij, ← hmem i]
      constructor
      · rintro ⟨r, -, hr⟩
        exact List.mem_of_getElem? hr
      · intro hi
        obtain ⟨r, hr⟩ := List.mem_iff_getElem?.mp hi
        refine ⟨r, ?_, hr⟩
        rintro rfl
        rw [hj, Option.some.injEq] at hr
        exact hij hr

/-! ## one contestant changes -/

theorem hasLock_eq_one (h : k.phase.hasLock = true) : k.hasLock = 1 := by
  rw [Contestant.hasLock, h, Bool.toNat_true]

theorem isInside_le_hasLock (k : Contestant) : k.isInside ≤ k.hasLock := by
  unfold Contestant.isInside Contestant.hasLock
  cases k.phase <;> simp [Phase.isInside, Phase.hasLock]

theorem Orderly.exists_line (h : Orderly goal 0 l c) (hk : c.contestants[i]? = some k)
    (hp : k.phase.hasLock = true) : ∃ ws, l = .held ws := by
  have hle := le_sum_map Contestant.hasLock c.contestants.toList i k (by simpa using hk)
  have hheld := h.held
  rw [hasLock_eq_one hp] at hle
  cases l with
  | free => exact absurd hheld (Nat.ne_of_gt hle)
  | held ws => exact ⟨ws, rfl⟩

theorem Orderly.sole (h : Orderly goal p l c) {j : Nat} {m : Contestant}
    (hi : c.contestants[i]? = some k) (hj : c.contestants[j]? = some m)
    (hk : k.phase.hasLock = true) (hm : m.phase.hasLock = true) : i = j := by
  have hheld := h.held
  have hle := Bool.toNat_le l.isHeld
  exact eq_of_total_le_one (by omega) hi hj (hasLock_eq_one hk) (hasLock_eq_one hm)

/-- What one contestant changes to, with what comes of it, keeps the invariant if it adds up. -/
theorem Orderly.put (h : Orderly goal p l c) (hk : c.contestants[i]? = some k)
    (table : Option LockTable) {counter inside peak : Nat}
    (hheld : k'.hasLock + p' + l.isHeld.toNat = k.hasLock + p + l'.isHeld.toNat)
    (hcounter : counter + k'.toWrite = c.counter + k.toWrite)
    (hinside : inside + k.isInside = c.inside + k'.isInside)
    (hpeak : peak ≤ max c.peak inside)
    (hseen : ∀ (j : Nat) (m : Contestant) (v : Nat), (c.put i k').contestants[j]? = some m →
      m.phase = .read v → v = counter)
    (hrounds : k'.rounds = 0 → k'.phase = .outside)
    (hqueue : Queued l' (c.put i k')) :
    Orderly goal p' l' ⟨table, counter, inside, peak, (c.put i k').contestants⟩ := by
  have hl := total_put Contestant.hasLock hk k'
  have hw := total_put Contestant.toWrite hk k'
  have hn := total_put Contestant.isInside hk k'
  have hheld₀ := h.held
  have hcounter₀ := h.counter
  have hinside₀ := h.inside
  have hpeak₀ := h.peak
  have held' : (c.put i k').total Contestant.hasLock + p' = l'.isHeld.toNat := by omega
  have inside' : inside = (c.put i k').total Contestant.isInside := by omega
  have hle : inside ≤ 1 := by
    have := total_mono isInside_le_hasLock (c.put i k')
    have := Bool.toNat_le l'.isHeld
    omega
  have counter' : counter + (c.put i k').total Contestant.toWrite = goal := by omega
  refine ⟨held', counter', inside', by show peak ≤ 1; omega, hseen, fun j m hj hm => ?_, hqueue⟩
  replace hj : (c.put i k').contestants[j]? = some m := hj
  by_cases hij : i = j
  · subst hij
    rw [getElem?_put_self hk, Option.some.injEq] at hj
    subst hj
    exact hrounds hm
  · rw [getElem?_put_of_ne c hij] at hj
    exact h.rounds j m hj hm

/-- Who has read the counter has still read what it is, when the counter stays. -/
theorem Orderly.seen_put (h : Orderly goal p l c) (hk : c.contestants[i]? = some k)
    (hk' : ∀ v, k'.phase = .read v → v = c.counter) (j : Nat) (m : Contestant) (v : Nat)
    (hj : (c.put i k').contestants[j]? = some m) (hm : m.phase = .read v) : v = c.counter := by
  by_cases hij : i = j
  · subst hij
    rw [getElem?_put_self hk, Option.some.injEq] at hj
    subst hj
    exact hk' v hm
  · rw [getElem?_put_of_ne c hij] at hj
    exact h.seen j m v hj hm

/-- A contestant changes, and neither the counter nor the line does. -/
theorem Orderly.move (h : Orderly goal p l c) (hk : c.contestants[i]? = some k)
    (table : Option LockTable) {inside peak : Nat}
    (hw : k.phase ≠ .waiting) (hw' : k'.phase ≠ .waiting) (hline : l'.line = l.line)
    (hheld : k'.hasLock + p' + l.isHeld.toNat = k.hasLock + p + l'.isHeld.toNat)
    (hwrite : k'.toWrite = k.toWrite)
    (hinside : inside + k.isInside = c.inside + k'.isInside)
    (hpeak : peak ≤ max c.peak inside)
    (hread : ∀ v, k'.phase = .read v → v = c.counter)
    (hrounds : k'.rounds = 0 → k'.phase = .outside) :
    Orderly goal p' l' ⟨table, c.counter, inside, peak, (c.put i k').contestants⟩ :=
  h.put hk table hheld (by rw [hwrite]) hinside hpeak (h.seen_put hk hread) hrounds
    (h.queue.put_of_not_waiting hk hw hw' hline)

/-! ## the steps of a round -/

section
variable {r : Nat}

/-- A contestant in the middle of its round has a round to finish. -/
theorem Orderly.rounds_pos (h : Orderly goal p l c) (hk : c.contestants[i]? = some k)
    (hp : k.phase ≠ .outside) : 0 < k.rounds := by
  rcases Nat.eq_zero_or_pos k.rounds with h0 | hpos
  · exact absurd (h.rounds i k hk h0) hp
  · exact hpos

theorem Orderly.get (h : Orderly goal 0 .free c) (hk : c.contestants[i]? = some ⟨.outside, r⟩)
    (hr : 0 < r) (table : Option LockTable) :
    Orderly goal 0 (.held []) { c.put i ⟨.holding, r⟩ with table := table } :=
  h.move hk table (by simp) (by simp) rfl rfl rfl rfl (Nat.le_max_left ..) (fun _ hv => nomatch hv)
    (fun h0 => absurd h0 (Nat.ne_of_gt hr))

theorem Orderly.wait {ws : List Thread} (h : Orderly goal 0 (.held ws) c)
    (hk : c.contestants[i]? = some ⟨.outside, r⟩) (hr : 0 < r) (table : Option LockTable) :
    Orderly goal 0 (.held (ws ++ [.racer i])) { c.put i ⟨.waiting, r⟩ with table := table } :=
  h.put hk table rfl rfl rfl (Nat.le_max_left ..) (h.seen_put hk fun _ hv => nomatch hv)
    (fun h0 => absurd h0 (Nat.ne_of_gt hr)) (h.queue.put_waiting hk (by simp) rfl)

theorem Orderly.enter (h : Orderly goal 0 l c) (hk : c.contestants[i]? = some ⟨.holding, r⟩) :
    Orderly goal 0 l { c.put i ⟨.inside, r⟩ with
      inside := c.inside + 1, peak := max c.peak (c.inside + 1) } := by
  have hr : 0 < r := h.rounds_pos hk (by simp)
  exact h.move hk c.table (by simp) (by simp) rfl rfl rfl rfl (Nat.le_refl _)
    (fun _ hv => nomatch hv) (fun h0 => absurd h0 (Nat.ne_of_gt hr))

theorem Orderly.look (h : Orderly goal 0 l c) (hk : c.contestants[i]? = some ⟨.inside, r⟩) :
    Orderly goal 0 l (c.put i ⟨.read c.counter, r⟩) := by
  have hr : 0 < r := h.rounds_pos hk (by simp)
  exact h.move hk c.table (by simp) (by simp) rfl rfl rfl rfl (Nat.le_max_left ..)
    (fun _ hv => (Phase.read.inj hv).symm) (fun h0 => absurd h0 (Nat.ne_of_gt hr))

/-- Nobody else has read the counter when it is written. -/
theorem Orderly.write {v : Nat} (h : Orderly goal 0 l c)
    (hk : c.contestants[i]? = some ⟨.read v, r⟩) :
    Orderly goal 0 l { c.put i ⟨.written, r⟩ with counter := v + 1 } := by
  have hr : 0 < r := h.rounds_pos hk (by simp)
  have hv : v = c.counter := h.seen i _ v hk rfl
  subst hv
  refine h.put hk c.table rfl ?_ rfl (Nat.le_max_left ..) ?_
    (fun h0 => absurd h0 (Nat.ne_of_gt hr)) (h.queue.put_of_not_waiting hk (by simp) (by simp) rfl)
  · show c.counter + 1 + (r - 1) = c.counter + r
    omega
  · intro j m v hj hm
    by_cases hij : i = j
    · subst hij
      rw [getElem?_put_self hk, Option.some.injEq] at hj
      subst hj
      exact nomatch hm
    · rw [getElem?_put_of_ne c hij] at hj
      exact absurd (h.sole hk hj rfl (by rw [hm]; rfl)) hij

theorem Orderly.leave (h : Orderly goal 0 l c) (hk : c.contestants[i]? = some ⟨.written, r⟩) :
    Orderly goal 0 l { c.put i ⟨.left, r⟩ with inside := c.inside - 1 } := by
  have hr : 0 < r := h.rounds_pos hk (by simp)
  have hin : 1 ≤ c.inside := by
    rw [h.inside]
    exact le_sum_map Contestant.isInside c.contestants.toList i _ (by simpa using hk)
  refine h.move hk c.table (by simp) (by simp) rfl rfl rfl ?_ (Nat.le_max_left ..)
    (fun _ hv => nomatch hv) (fun h0 => absurd h0 (Nat.ne_of_gt hr))
  show c.inside - 1 + 1 = c.inside + 0
  omega

/-- The lock is given back: it is free, or a hand-over is under way. -/
theorem Orderly.give {ws : List Thread} (h : Orderly goal 0 (.held ws) c)
    (hk : c.contestants[i]? = some ⟨.left, r⟩) (l' : Lock) (table : Option LockTable)
    (hline : l'.line = ws) :
    Orderly goal l'.isHeld.toNat l' { c.put i ⟨.outside, r - 1⟩ with table := table } := by
  refine h.move hk table (by simp) (by simp) hline ?_ rfl rfl (Nat.le_max_left ..)
    (fun _ hv => nomatch hv) (fun _ => rfl)
  show 0 + l'.isHeld.toNat + 1 = 1 + 0 + l'.isHeld.toNat
  omega

/-- A lock that is to be handed over goes to a contestant that waits. -/
theorem Orderly.serve {ws : List Thread} {place : Nat} {w : Thread}
    (h : Orderly goal 1 (.held ws) c) (hw : ws[place]? = some w) :
    ∃ j m, w = .racer j ∧ c.contestants[j]? = some ⟨.waiting, m⟩ ∧
      Orderly goal 0 (.held (ws.eraseIdx place)) (c.put j ⟨.holding, m⟩) := by
  obtain ⟨j, ⟨ph, m⟩, hwj, hj, hph, hqueue⟩ := h.queue.serve hw
  replace hph : ph = .waiting := hph
  subst hph
  have hm := h.rounds_pos hj (by simp)
  exact ⟨j, m, hwj, hj, h.put hj c.table rfl rfl rfl (Nat.le_max_left ..)
    (h.seen_put hj fun _ hv => nomatch hv) (fun h0 => absurd h0 (Nat.ne_of_gt hm))
    (hqueue _ (by simp))⟩

end

/-! ## every step -/

theorem work_lt {phase phase' : Phase} {r : Nat} (hr : 0 < r)
    (h : phase.progress < phase'.progress) :
    (⟨phase', r⟩ : Contestant).work < (⟨phase, r⟩ : Contestant).work := by
  have hle : phase'.progress ≤ 6 := by cases phase' <;> simp [Phase.progress]
  show 7 * r - phase'.progress < 7 * r - phase.progress
  omega

theorem work_put (hk : c.contestants[i]? = some k) (h : k'.work < k.work) :
    (c.put i k').work < c.work := by
  have := total_put Contestant.work hk k'
  rw [work_eq_total, work_eq_total]
  omega

theorem dispatch_of_eq {place : Nat} {mode index : Int32} {o : Outcome} {t : LockTable}
    (h : dispatchTo place c.table (.racer i) mode index = .ok (o, t)) :
    c.dispatch place mode index i = .ok (o, { c with table := some t }) := by
  simp only [dispatch, h]

/-- The step of contestant `i` succeeds and keeps the invariant, and it brings the contest forward
unless the contestant waits or is finished. -/
def Advances (calls : Calls) (t : LockTable) (goal : Nat) (c : Contest) (i place : Nat) : Prop :=
  ∃ l' c', c.step calls i place = .ok c' ∧
    c'.table = some (t.setLock calls.index.toNatClampNeg l') ∧ Orderly goal 0 l' c' ∧
    (c.CanMove i → c'.work < c.work)

section
variable {calls : Calls} {t : LockTable} {r : Nat} (hneg : 0 ≤ calls.index)
  (hlt : calls.index.toNatClampNeg < t.size) (h : Orderly goal 0 l c)
  (ht : c.table = some (t.setLock calls.index.toNatClampNeg l))
include hneg hlt h ht

theorem Orderly.advances_outside (htake : Mode.takes calls.takeMode = true) (hr : 0 < r)
    (hk : c.contestants[i]? = some ⟨.outside, r⟩) (place : Nat) :
    Advances calls t goal c i place := by
  have hcall := dispatchTo_of_takes place (.racer i) hneg htake
    (LockTable.getElem?_setLock_self hlt l)
  rw [LockTable.setLock_setLock, ← ht] at hcall
  cases l with
  | free =>
    have hstep : c.step calls i place = .ok ({ c with
        table := some (t.setLock calls.index.toNatClampNeg (.held [])) }.setPhase i .holding) := by
      simp only [Contest.step, hk, if_neg (Nat.ne_of_gt hr), dispatch_of_eq hcall]
      rfl
    rw [setPhase_eq_put (by exact hk)] at hstep
    exact ⟨_, _, hstep, rfl, h.get hk hr _, fun _ => work_put hk (work_lt hr (by decide))⟩
  | held ws =>
    have hstep : c.step calls i place = .ok ({ c with
        table := some (t.setLock calls.index.toNatClampNeg (.held (ws ++ [Thread.racer i]))) }.setPhase
          i .waiting) := by
      simp only [Contest.step, hk, if_neg (Nat.ne_of_gt hr), dispatch_of_eq hcall]
      rfl
    rw [setPhase_eq_put (by exact hk)] at hstep
    exact ⟨_, _, hstep, rfl, h.wait hk hr _, fun _ => work_put hk (work_lt hr (by decide))⟩

theorem Orderly.advances_left (hgive : Mode.takes calls.giveMode = false)
    (hk : c.contestants[i]? = some ⟨.left, r⟩) (place : Nat) : Advances calls t goal c i place := by
  have hr : 0 < r := h.rounds_pos hk (by simp)
  obtain ⟨ws, rfl⟩ := h.exists_line hk rfl
  have hcall := dispatchTo_of_gives place (.racer i) hneg hgive
    (LockTable.getElem?_setLock_self hlt (.held ws)) rfl
  rw [LockTable.setLock_setLock, ← ht] at hcall
  have hend : (⟨.outside, r - 1⟩ : Contestant).work < (⟨.left, r⟩ : Contestant).work := by
    show 7 * (r - 1) - 0 < 7 * r - 6
    omega
  rcases Lock.give_cases place ws with ⟨rfl, hgiven⟩ | ⟨at', w, hw, hgiven⟩
  · have hstep : c.step calls i place = .ok ({ c with
        table := some (t.setLock calls.index.toNatClampNeg .free) }.endRound i) := by
      simp only [Contest.step, hk, dispatch_of_eq hcall]
      rfl
    rw [endRound_eq_put (by exact hk)] at hstep
    exact ⟨_, _, hstep, rfl, h.give hk .free _ rfl, fun _ => work_put hk hend⟩
  · have hpass := h.give hk (.held ws)
      (some (t.setLock calls.index.toNatClampNeg (.held (ws.eraseIdx at')))) rfl
    obtain ⟨j, m, rfl, hj, hserve⟩ := hpass.serve hw
    have hstep : c.step calls i place = .ok (({ c with
        table := some (t.setLock calls.index.toNatClampNeg (.held (ws.eraseIdx at'))) }.endRound
          i).wake (some (.racer j))) := by
      simp only [Contest.step, hk, dispatch_of_eq hcall, hgiven]
      rfl
    rw [endRound_eq_put (by exact hk), wake, setPhase_eq_put (by exact hj)] at hstep
    refine ⟨_, _, hstep, rfl, hserve, fun _ => ?_⟩
    have hm : 0 < m := hpass.rounds_pos hj (by simp)
    exact Nat.lt_trans (work_put hj (work_lt hm (by decide))) (work_put hk hend)

/-- **Every step succeeds and keeps the invariant.** -/
theorem Orderly.advances (htake : Mode.takes calls.takeMode = true)
    (hgive : Mode.takes calls.giveMode = false) (i place : Nat) :
    Advances calls t goal c i place := by
  cases hk : c.contestants[i]? with
  | none =>
    refine ⟨l, c, by simp only [Contest.step, hk], ht, h, ?_⟩
    rintro ⟨k, hk', -⟩
    rw [hk] at hk'
    exact nomatch hk'
  | some k =>
    obtain ⟨phase, r⟩ := k
    cases phase with
    | outside =>
      rcases Nat.eq_zero_or_pos r with rfl | hr
      · refine ⟨l, c, by simp only [Contest.step, hk, if_true], ht, h, ?_⟩
        rintro ⟨k, hk', -, hr⟩
        rw [hk, Option.some.injEq] at hk'
        exact absurd (hk' ▸ rfl) hr
      · exact h.advances_outside hneg hlt ht htake hr hk place
    | waiting =>
      refine ⟨l, c, by simp only [Contest.step, hk], ht, h, ?_⟩
      rintro ⟨k, hk', hw, -⟩
      rw [hk, Option.some.injEq] at hk'
      exact absurd (hk' ▸ rfl) hw
    | holding =>
      have hr : 0 < r := h.rounds_pos hk (by simp)
      have hstep : c.step calls i place = .ok ({ c with
          inside := c.inside + 1, peak := max c.peak (c.inside + 1) }.setPhase i .inside) := by
        simp only [Contest.step, hk]
      rw [setPhase_eq_put (by exact hk)] at hstep
      exact ⟨l, _, hstep, ht, h.enter hk, fun _ => work_put hk (work_lt hr (by decide))⟩
    | inside =>
      have hr : 0 < r := h.rounds_pos hk (by simp)
      have hstep : c.step calls i place = .ok (c.setPhase i (.read c.counter)) := by
        simp only [Contest.step, hk]
      rw [setPhase_eq_put hk] at hstep
      exact ⟨l, _, hstep, ht, h.look hk, fun _ => work_put hk (work_lt hr (Nat.lt_succ_self 3))⟩
    | read v =>
      have hr : 0 < r := h.rounds_pos hk (by simp)
      have hstep : c.step calls i place
          = .ok ({ c with counter := v + 1 }.setPhase i .written) := by
        simp only [Contest.step, hk]
      rw [setPhase_eq_put (by exact hk)] at hstep
      exact ⟨l, _, hstep, ht, h.write hk, fun _ => work_put hk (work_lt hr (Nat.lt_succ_self 4))⟩
    | written =>
      have hr : 0 < r := h.rounds_pos hk (by simp)
      have hstep : c.step calls i place
          = .ok ({ c with inside := c.inside - 1 }.setPhase i .left) := by
        simp only [Contest.step, hk]
      rw [setPhase_eq_put (by exact hk)] at hstep
      exact ⟨l, _, hstep, ht, h.leave hk, fun _ => work_put hk (work_lt hr (by decide))⟩
    | left => exact h.advances_left hneg hlt ht hgive hk place

end

/-! ## whole schedules -/

theorem orderly_start {t : LockTable} (threads rounds counter : Nat) :
    Orderly (counter + threads * rounds) 0 .free
      { start (some t) threads rounds with counter := counter } := by
  have houtside : ∀ (i : Nat) (k : Contestant),
      (Array.replicate threads (⟨.outside, rounds⟩ : Contestant))[i]? = some k →
        k.phase = .outside := by
    intro i k hk
    rw [Array.getElem?_replicate] at hk
    split at hk
    · rw [Option.some.injEq] at hk
      rw [← hk]
    · exact nomatch hk
  refine ⟨?_, ?_, ?_, Nat.zero_le _, ?_, fun i k hk _ => houtside i k hk, ?_⟩
  · exact total_start Contestant.hasLock (some t) threads rounds
  · exact congrArg _ (total_start Contestant.toWrite (some t) threads rounds)
  · exact (total_start Contestant.isInside (some t) threads rounds).symm
  · intro i k v hk hv
    exact nomatch (houtside i k hk).symm.trans hv
  · refine ⟨[], rfl, List.nodup_nil, fun j => ⟨fun hj => absurd hj List.not_mem_nil, ?_⟩⟩
    rintro ⟨k, hk, hw⟩
    exact nomatch (houtside j k hk).symm.trans hw

theorem Orderly.follow {calls : Calls} {t : LockTable} (hneg : 0 ≤ calls.index)
    (hlt : calls.index.toNatClampNeg < t.size) (htake : Mode.takes calls.takeMode = true)
    (hgive : Mode.takes calls.giveMode = false) (schedule : List (Nat × Nat)) :
    ∀ (l : Lock) (c : Contest), Orderly goal 0 l c →
      c.table = some (t.setLock calls.index.toNatClampNeg l) →
      ∃ l' c', c.follow calls schedule = .ok c' ∧
        c'.table = some (t.setLock calls.index.toNatClampNeg l') ∧ Orderly goal 0 l' c' := by
  induction schedule with
  | nil => exact fun l c h ht => ⟨l, c, rfl, ht, h⟩
  | cons s schedule ih =>
    intro l c h ht
    obtain ⟨l₁, c₁, hstep, ht₁, h₁, -⟩ := h.advances hneg hlt ht htake hgive s.1 s.2
    obtain ⟨l₂, c₂, hrest, ht₂, h₂⟩ := ih l₁ c₁ h₁ ht₁
    refine ⟨l₂, c₂, ?_, ht₂, h₂⟩
    rw [Contest.follow, List.foldlM_cons, hstep]
    exact hrest

/-- While a round is unfinished, some contestant with rounds to finish does not wait: the one that
has the lock, or any one if nobody has it. -/
theorem Orderly.exists_canMove (h : Orderly goal 0 l c) (hd : c.isDone = false) :
    ∃ i, c.CanMove i := by
  cases l with
  | held ws =>
    have hpos : 0 < c.total Contestant.hasLock := by
      have hheld : c.total Contestant.hasLock + 0 = 1 := h.held
      omega
    obtain ⟨i, ⟨phase, r⟩, hi, hk⟩ := exists_of_total_pos hpos
    have hout : phase ≠ .outside := fun e => absurd hk (by subst e; exact Nat.lt_irrefl 0)
    have hwait : phase ≠ .waiting := fun e => absurd hk (by subst e; exact Nat.lt_irrefl 0)
    exact ⟨i, _, hi, hwait, Nat.ne_of_gt (h.rounds_pos hi hout)⟩
  | free =>
    obtain ⟨q, hq, -, hmem⟩ := h.queue
    obtain rfl : q = [] := List.map_eq_nil_iff.mp hq.symm
    rw [isDone, Array.all_eq_false] at hd
    obtain ⟨i, hi, hr⟩ := hd
    refine ⟨i, _, Array.getElem?_eq_getElem hi, fun hw => ?_, by simpa using hr⟩
    exact List.not_mem_nil ((hmem i).mpr ⟨_, Array.getElem?_eq_getElem hi, hw⟩)

/-- When all rounds are finished, the lock is free and no increment is to come. -/
theorem Orderly.of_isDone (h : Orderly goal 0 l c) (hd : c.isDone = true) :
    l = .free ∧ c.counter = goal := by
  have houtside : ∀ (i : Nat) (k : Contestant), c.contestants[i]? = some k →
      k = ⟨.outside, 0⟩ := by
    intro i k hk
    obtain ⟨hi, rfl⟩ := Array.getElem?_eq_some_iff.mp hk
    have hr : c.contestants[i].rounds = 0 := by
      simpa using Array.all_eq_true.mp hd i hi
    have hp := h.rounds i _ hk hr
    rw [← hr, ← hp]
  have hzero : ∀ f : Contestant → Nat, f ⟨.outside, 0⟩ = 0 → c.total f = 0 := by
    intro f hf
    rcases Nat.eq_zero_or_pos (c.total f) with h0 | hpos
    · exact h0
    · obtain ⟨i, k, hi, hk⟩ := exists_of_total_pos hpos
      rw [houtside i k hi, hf] at hk
      exact absurd hk (Nat.lt_irrefl 0)
  have hheld := h.held
  have hcounter := h.counter
  rw [hzero _ rfl] at hheld hcounter
  refine ⟨?_, by omega⟩
  cases l with
  | free => rfl
  | held ws => exact nomatch hheld

/-- **A lock keeps the threads of a contest apart.**  Whatever the order of the steps and whoever
is served, no call is a fault, at most one thread is between its acquire and its release, and some
unfinished thread can step, which leaves less to do.  In the end no increment is lost, and the
table is as it was. -/
theorem counter_of_follow (calls : Calls) (t : LockTable) (threads rounds counter : Nat)
    (htake : calls.takeMode.toInt % 2 = 1) (hgive : calls.giveMode.toInt % 2 = 0)
    (hindex : 0 ≤ calls.index) (hfree : t.locks[calls.index.toNatClampNeg]? = some .free)
    (schedule : List (Nat × Nat)) :
    ∃ c, follow calls schedule { start (some t) threads rounds with counter := counter } = .ok c ∧
      (∀ i j, c.HasLock i → c.HasLock j → i = j) ∧ c.peak ≤ 1 ∧
      (c.isDone = false → ∃ i, c.CanMove i ∧
        ∀ place, ∃ c', c.step calls i place = .ok c' ∧ c'.work < c.work) ∧
      (c.isDone = true → c.counter = counter + threads * rounds ∧ c.table = some t) := by
  have htake' := (Mode.takes_iff _).mpr htake
  have hgive' := (Mode.takes_eq_false_iff _).mpr hgive
  have hlt := LockTable.lt_size_of_getElem? hfree
  have hself := LockTable.setLock_self hfree
  have hstart := orderly_start (t := t) threads rounds counter
  obtain ⟨l, c, hrun, ht, h⟩ := Orderly.follow hindex hlt htake' hgive' schedule .free _ hstart
    (by rw [hself]; rfl)
  refine ⟨c, hrun, ?_, h.peak, ?_, ?_⟩
  · rintro i j ⟨k, hi, hk⟩ ⟨m, hj, hm⟩
    exact h.sole hi hj hk hm
  · intro hd
    obtain ⟨i, hi⟩ := h.exists_canMove hd
    refine ⟨i, hi, fun place => ?_⟩
    obtain ⟨l', c', hstep, -, -, hwork⟩ := h.advances hindex hlt ht htake' hgive' i place
    exact ⟨c', hstep, hwork hi⟩
  · intro hd
    obtain ⟨rfl, hcounter⟩ := h.of_isDone hd
    exact ⟨hcounter, by rw [ht, hself]⟩

/-- The second of two threads waits for the first and is handed the lock, in a table with another
lock that somebody holds. -/
theorem counter_of_follow_handed_over :
    (-1 : Int32).toInt % 2 = 1 ∧ (-2 : Int32).toInt % 2 = 0 ∧ (0 : Int32) ≤ 1 ∧
      (⟨#[.held [.main], .free]⟩ : LockTable).locks[(1 : Int32).toNatClampNeg]? = some .free ∧
      ∃ c, follow ⟨-1, -2, 1⟩ [(0, 0), (1, 0), (0, 0), (0, 0), (0, 0), (0, 0), (0, 7), (1, 0),
          (1, 0), (1, 0), (1, 0), (1, 0)]
          { start (some ⟨#[.held [.main], .free]⟩) 2 1 with counter := 5 } = .ok c ∧
        c.isDone = true ∧ c.counter = 5 + 2 * 1 ∧ c.table = some ⟨#[.held [.main], .free]⟩ := by
  refine ⟨by decide, by decide, by decide, by decide, ?_⟩
  obtain ⟨c, hrun, -, -, -, hend⟩ := counter_of_follow ⟨-1, -2, 1⟩ ⟨#[.held [.main], .free]⟩ 2 1 5
    (by decide) (by decide) (by decide) (by decide)
    [(0, 0), (1, 0), (0, 0), (0, 0), (0, 0), (0, 0), (0, 7), (1, 0), (1, 0), (1, 0), (1, 0), (1, 0)]
  have hdone : c.isDone = true := by
    have hall : Except.map isDone (.ok c : Except Fault Contest) = .ok true := by
      rw [← hrun]
      cbv
    exact Except.ok.inj hall
  exact ⟨c, hrun, hdone, hend hdone⟩

end Contest

end CallbackLocks
