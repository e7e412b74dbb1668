import CallbackLocks.Proofs.Accounts
import CallbackLocks.Proofs.Dispatching

/-!
# Distinct locks

What a call does depends on its lock alone, and shows at its lock alone.  Threads that do not wait
and use different locks can thus make their calls in either order.

* `LockTable.setLock_comm`   two locks replaced, in either order
* `Posting`, `Books.post`    what a call enters into the books, at one lock and for one thread
* `Balanced.exists_posting`   **every call enters one such thing**, the same in all books that have
                             the same at its lock
* `Books.post_comm`          entries at two locks and for two threads can change places
* `Balanced.locks_of_call`, `locks_of_run`   calls leave the locks alone that they do not name
* `independence_of_run`      what this comes to for calls in any order
-/

namespace CallbackLocks

open Function (update)

theorem LockTable.setLock_comm (t : LockTable) {i j : Nat} (h : i ≠ j) (l l' : Lock) :
    (t.setLock i l).setLock j l' = (t.setLock j l').setLock i l := by
  apply ext_locks
  intro m
  simp only [getElem?_setLock, size_setLock]
  by_cases hi : i = m
  · rw [if_pos hi, if_neg fun hj => h (hi.trans hj.symm), if_pos hi]
  · rw [if_neg hi, if_neg hi]

/-- What a call enters: the new state of its lock, what is pending for one thread from now on, and
what is to be added to the counts. -/
structure Posting where
  lock : Nat
  state : Lock
  thread : Thread
  pending : Option Nat
  taken : Nat
  given : Nat

namespace Books

def post (b : Books) (e : Posting) : Books where
  table := b.table.setLock e.lock e.state
  pending := update b.pending e.thread e.pending
  taken := update b.taken e.lock (b.taken e.lock + e.taken)
  given := update b.given e.lock (b.given e.lock + e.given)

variable {b b' : Books} {who : Thread} {c : LockCall} {e e' : Posting} {j : Nat}

theorem post_comm (hlock : e.lock ≠ e'.lock) (hthread : e.thread ≠ e'.thread) :
    (b.post e).post e' = (b.post e').post e := by
  simp only [post, Function.update_of_ne hlock, Function.update_of_ne hlock.symm,
    LockTable.setLock_comm b.table hlock, Function.update_comm hlock,
    Function.update_comm hthread]

/-- What a call enters depends on its lock: it is the same for all books that have the same there.
The thread is the one that calls or one that waits for that lock. -/
theorem Balanced.exists_posting (hb : Balanced b) (hw : b.table.isWaiting who = false)
    (hok : ∀ f, b.call who c ≠ .error f) : ∃ o e, e.lock = c.index ∧
      (e.thread = who ∨ b.pending e.thread = some c.index) ∧
      ∀ b₁, Balanced b₁ → b₁.table.isWaiting who = false →
        b₁.table.locks[c.index]? = b.table.locks[c.index]? →
        b₁.call who c = .ok (.called o, b₁.post e) := by
  have hnone : ∀ b₁, Balanced b₁ → b₁.table.isWaiting who = false →
      update b₁.pending who none = b₁.pending := fun b₁ h₁ hw₁ =>
    Function.update_eq_self_iff.mpr (h₁.pending_eq_none hw₁).symm
  cases hc : b.call who c with
  | error f => exact absurd hc (hok f)
  | ok x =>
    obtain ⟨a, v⟩ := x
    rcases call_cases hc with ⟨hw', -⟩ | ⟨-, -, n, ⟨rfl, hl⟩ | ⟨ws, rfl, hl⟩ |
      ⟨ws, rfl, hl⟩⟩
    · exact nomatch hw.symm.trans hw'
    · refine ⟨.returned none, ⟨n, .held [], who, none, 1, 0⟩, rfl, .inl rfl, fun b₁ h₁ hw₁ hs => ?_⟩
      have hl₁ : b₁.table.locks[n]? = _ := hs.trans hl
      rw [acquire_free hw₁ hl₁]
      simp only [post, countTaken, hnone b₁ h₁ hw₁, Nat.add_zero, Function.update_eq_self]
    · refine ⟨.blocked, ⟨n, .held (ws ++ [who]), who, some n, 0, 0⟩, rfl, .inl rfl,
        fun b₁ h₁ hw₁ hs => ?_⟩
      have hl₁ : b₁.table.locks[n]? = _ := hs.trans hl
      rw [acquire_held hw₁ hl₁]
      simp only [post, setPending, Nat.add_zero, Function.update_eq_self]
    · cases ws with
      | nil =>
        refine ⟨.returned none, ⟨n, .free, who, none, 0, 1⟩, rfl, .inl rfl,
          fun b₁ h₁ hw₁ hs => ?_⟩
        have hl₁ : b₁.table.locks[n]? = _ := hs.trans hl
        rw [release_alone hw₁ hl₁]
        simp only [post, countGiven, hnone b₁ h₁ hw₁, Nat.add_zero, Function.update_eq_self]
      | cons w ws =>
        have hp := ((hb.at_lock hl).2.2 w).mp List.mem_cons_self
        refine ⟨.returned (some w), ⟨n, .held ws, w, none, 1, 1⟩, rfl, .inr hp,
          fun b₁ h₁ hw₁ hs => ?_⟩
        have hl₁ : b₁.table.locks[n]? = _ := hs.trans hl
        rw [release_awaited hw₁ hl₁ (((h₁.at_lock hl₁).2.2 w).mp List.mem_cons_self)]
        rfl

theorem getElem?_post (h : e.lock ≠ j) : (b.post e).table.locks[j]? = b.table.locks[j]? := by
  show (b.table.setLock e.lock e.state).locks[j]? = _
  rw [LockTable.getElem?_setLock, if_neg h]

theorem Balanced.isWaiting_eq_false_iff (hb : Balanced b) :
    b.table.isWaiting who = false ↔ b.pending who = none := by
  refine ⟨hb.pending_eq_none, fun h => Bool.eq_false_iff.mpr fun hw => ?_⟩
  obtain ⟨n, hn⟩ := LockTable.isWaiting_iff.mp hw
  exact nomatch h.symm.trans ((hb.pending who n).mp hn)

theorem Balanced.isWaiting_post (hb : Balanced (b.post e)) (hw : b.pending who = none)
    (hne : e.thread ≠ who) : (b.post e).table.isWaiting who = false :=
  hb.isWaiting_eq_false_iff.mpr ((Function.update_of_ne hne.symm _ _).trans hw)

/-- **Two calls on distinct locks can change places.** -/
theorem Balanced.call_comm (hb : Balanced b) {t u : Thread} {d : LockCall} (hne : t ≠ u)
    (ht : b.table.isWaiting t = false) (hu : b.table.isWaiting u = false)
    (hdistinct : c.index ≠ d.index) (hc : ∀ f, b.call t c ≠ .error f)
    (hd : ∀ f, b.call u d ≠ .error f) :
    ∃ o o' b₁ b₂ b', b.call t c = .ok (.called o, b₁) ∧ b₁.call u d = .ok (.called o', b') ∧
      b.call u d = .ok (.called o', b₂) ∧ b₂.call t c = .ok (.called o, b') := by
  obtain ⟨o, e, he, hthread, hcall⟩ := hb.exists_posting ht hc
  obtain ⟨o', e', he', hthread', hcall'⟩ := hb.exists_posting hu hd
  have hpt := hb.pending_eq_none ht
  have hpu := hb.pending_eq_none hu
  -- a call concerns its own thread or one in line for its lock, so never one that waits for nothing
  have hother : ∀ {x v w : Thread} {i : Nat}, x = v ∨ b.pending x = some i → v ≠ w →
      b.pending w = none → x ≠ w := by
    rintro x v w i (rfl | hx) hvw hw rfl
    · exact hvw rfl
    · exact nomatch hx.symm.trans hw
  have htu : e.thread ≠ u := hother hthread hne hpu
  have hut : e'.thread ≠ t := hother hthread' hne.symm hpt
  have hthreads : e.thread ≠ e'.thread := by
    rcases hthread' with h' | h'
    · exact h' ▸ htu
    · rcases hthread with h | h
      · exact h ▸ hut.symm
      · intro heq
        exact hdistinct (Option.some.inj (h.symm.trans (heq ▸ h')))
  have hcb := hcall b hb ht rfl
  have hdb := hcall' b hb hu rfl
  refine ⟨o, o', b.post e, b.post e', (b.post e).post e', hcb, ?_, hdb, ?_⟩
  · exact hcall' _ (hb.call hcb) ((hb.call hcb).isWaiting_post hpu htu)
      (getElem?_post (he ▸ hdistinct))
  · rw [post_comm (he ▸ he' ▸ hdistinct) hthreads]
    exact hcall _ (hb.call hdb) ((hb.call hdb).isWaiting_post hpt hut)
      (getElem?_post (he' ▸ hdistinct.symm))

/-! ## locks that no call names -/

theorem Balanced.locks_of_call (hb : Balanced b) {a : TableAnswer}
    (h : b.call who c = .ok (a, b')) (hj : c.index ≠ j) :
    b'.table.locks[j]? = b.table.locks[j]? := by
  cases hw : b.table.isWaiting who with
  | true =>
    rw [call_of_waiting hw] at h
    rw [(Prod.mk.inj (Except.ok.inj h)).2]
  | false =>
    obtain ⟨o, e, he, -, hcall⟩ := hb.exists_posting (c := c) hw fun f hf => nomatch h.symm.trans hf
    rw [hcall b hb hw rfl] at h
    rw [← (Prod.mk.inj (Except.ok.inj h)).2, getElem?_post (he ▸ hj)]

/-- Calls leave the locks alone that they do not name. -/
theorem Balanced.locks_of_run {calls : List (Thread × LockCall)} (hb : Balanced b)
    (h : Books.run calls b = .ok b') (hj : ∀ x ∈ calls, x.2.index ≠ j) :
    b'.table.locks[j]? = b.table.locks[j]? := by
  induction calls generalizing b with
  | nil => rw [← Except.ok.inj h]
  | cons x calls ih =>
    unfold Books.run at h
    split at h
    · exact nomatch h
    · rename_i b₁ hc
      rw [ih (hb.call hc) h fun y hy => hj y (List.mem_cons_of_mem x hy),
        hb.locks_of_call hc (hj x List.mem_cons_self)]

/-- **Distinct locks are independent.**  In every state that calls can lead to, two calls by two
threads that do not wait, on two locks and neither of them a fault, end the same in either order:
each returns or waits as in the other order, with the same thread let go, and the locks, their lines
and what is pending for whom are the same afterwards.  No calls on other locks, in any order and by
any threads, change whether a lock is held or who waits for it.  With the table installed, these are
the calls of the dispatcher. -/
theorem independence_of_run {size : Nat} {calls : List (Thread × LockCall)}
    (hr : run calls (opened size) = .ok b) :
    (∀ t u c d, t ≠ u → b.table.isWaiting t = false → b.table.isWaiting u = false →
      c.index ≠ d.index → (∀ f, b.call t c ≠ .error f) → (∀ f, b.call u d ≠ .error f) →
      ∃ o o' b₁ b₂ b',
        b.call t c = .ok (.called o, b₁) ∧ b₁.call u d = .ok (.called o', b') ∧
        b.call u d = .ok (.called o', b₂) ∧ b₂.call t c = .ok (.called o, b')) ∧
    (∀ j more b', (∀ x ∈ more, x.2.index ≠ j) → run more b = .ok b' →
      b'.table.isHeld j = b.table.isHeld j ∧ b'.table.line j = b.table.line j ∧
      ∀ who, b'.pending who = some j ↔ b.pending who = some j) ∧
    ∀ who mode index, 0 ≤ index → dispatch (some b.table) who mode index =
      b.table.perform who (.ofMode mode index.toNatClampNeg) := by
  have hb : Balanced b := (balanced_opened size).run hr
  refine ⟨fun t u c d hne ht hu hdistinct hc hd =>
    hb.call_comm hne ht hu hdistinct hc hd, fun j more b' hj hmore => ?_,
    fun who mode index hneg => dispatch_eq_perform b.table who mode hneg⟩
  have hlock := hb.locks_of_run hmore hj
  have hline : b'.table.line j = b.table.line j := by simp only [LockTable.line, hlock]
  refine ⟨by simp only [LockTable.isHeld, hlock], hline, fun who => ?_⟩
  rw [← (hb.run hmore).pending, hline, hb.pending]

/-- One worker holds a lock, a second waits for it, and the main thread holds another one. -/
def contended : List (Thread × LockCall) :=
  [(.worker 0, .acquire 0), (.worker 1, .acquire 0), (.main, .acquire 1)]

/-- To give back the one, which lets the second worker go, and to ask for the other can change
places. -/
theorem independence_of_run_contended : ∃ b b₁ b₂ b', run contended (opened 2) = .ok b ∧
    b.call (.worker 0) (.release 0) = .ok (.called (.returned (some (.worker 1))), b₁) ∧
    b₁.call (.worker 2) (.acquire 1) = .ok (.called .blocked, b') ∧
    b.call (.worker 2) (.acquire 1) = .ok (.called .blocked, b₂) ∧
    b₂.call (.worker 0) (.release 0) = .ok (.called (.returned (some (.worker 1))), b') := by
  have hseen : (run contended (opened 2)).map (fun b =>
      (b.table.isWaiting (.worker 0), b.table.isWaiting (.worker 2),
        (b.call (.worker 0) (.release 0)).map Prod.fst,
        (b.call (.worker 2) (.acquire 1)).map Prod.fst)) =
      .ok (false, false, .ok (.called (.returned (some (.worker 1)))), .ok (.called .blocked)) := by
    cbv
  obtain ⟨b, hb, hseen⟩ := exists_of_map_eq_ok hseen
  simp only [Prod.mk.injEq] at hseen
  obtain ⟨h0, h2, hgive, htake⟩ := hseen
  obtain ⟨o, o', b₁, b₂, b', h₁, h₂, h₃, h₄⟩ := (independence_of_run hb).1 (.worker 0) (.worker 2)
    (.release 0) (.acquire 1) (by decide) h0 h2 (by decide)
    (fun f hf => by rw [hf] at hgive; cases hgive) (fun f hf => by rw [hf] at htake; cases htake)
  rw [h₁] at hgive
  rw [h₃] at htake
  cases hgive
  cases htake
  exact ⟨b, b₁, b₂, b', hb, h₁, h₂, h₃, h₄⟩

end Books

end CallbackLocks
