import CallbackLocks.Proofs.Runs.Loading

/-!
# What a session stands on

A call that begins a session has the claim, finds a table or makes one, and then looks for a seed.
It gives the claim back if there is none, and so does the call that ends the session.

* `Footing`, `Watch.footing`   how far a call has come that begins a session or ends one
* `Watch.rests_cases`, `looked_cases`   how it gets to a table, or finds that there is none
* `Operation.footing_along`   **every operation goes by these steps**
-/

namespace CallbackLocks

open Program

/-- How far a call about sessions has come. -/
inductive Footing where
  /-- it does not have the claim on the one session -/
  | idle
  | claimed
  /-- it has found no table -/
  | looked
  /-- it has made a table, or found one -/
  | rests
  /-- it gives up what it has -/
  | leaving
deriving DecidableEq

theorem Footing.rests_ne_looked : rests ≠ looked := by decide

/-- The next step of a call that has the claim: it finds a table or makes one, and then looks for a
seed.  It removes a table only on its way out. -/
def Watch.footing (onSession : Bool) : Watch Footing where
  allows := fun b a => match a with
    | .claim => onSession = true ∧ b = .idle
    | .unclaim => b ≠ .idle
    | .freeLifecycle => b ≠ .looked
    | .withdrawTable => onSession = true → b = .leaving
    | _ => True
  leads := fun b a w b' => match a with
    | .claim => b' = if w.claimed then .idle else .claimed
    | .loadTable =>
      b' = if b = .claimed then (if w.tableSize.isSome then .rests else .looked) else b
    | .readLocking r => b' = b ∧ (b = .looked → r = .host → w.locking r = none)
    | .publishTable _ => b' = if b = .looked then .rests else b
    | .readSeeded => b' = if b = .rests ∧ w.seeded = false then .leaving else b
    | .unclaim => b' = .idle
    | _ => b' = b
  quits := fun b => b = .idle

def Access.isOfFooting : Access → Bool
  | claim | unclaim | freeLifecycle | loadTable | readLocking _ | publishTable _ | withdrawTable
  | readSeeded => true
  | _ => false

section
variable {on : Bool} {b b' : Footing} {a : Access} {w : World}

theorem Watch.ignores_footing (h : a.isOfFooting = false) : (footing on).Ignores b a := by
  cases a with
  | claim | unclaim | freeLifecycle | loadTable | readLocking | publishTable | withdrawTable
  | readSeeded => exact nomatch h
  | _ => exact ⟨trivial, fun _ _ h => h⟩

/-- Most accesses make no difference to a call that does not look for a table, and has none. -/
theorem Watch.ignores_footing_still (hb : b = .claimed ∨ b = .leaving ∨ on = false ∧ b = .idle)
    (hload : b = .claimed → a ≠ .loadTable ∧ a ≠ .withdrawTable) (hclaim : a ≠ .claim)
    (hunclaim : a ≠ .unclaim) : (footing on).Ignores b a := by
  have hlooked : b ≠ .looked := by
    rintro rfl
    simp at hb
  have hrests : b ≠ .rests := by
    rintro rfl
    simp at hb
  cases a with
  | claim => exact absurd rfl hclaim
  | unclaim => exact absurd rfl hunclaim
  | freeLifecycle => exact ⟨hlooked, fun _ _ h => h⟩
  | loadTable => exact ⟨trivial, fun _ _ h => h.trans (if_neg fun hc => (hload hc).1 rfl)⟩
  | withdrawTable =>
    refine ⟨fun hon => ?_, fun _ _ h => h⟩
    rcases hb with hb | hb | hb
    · exact absurd rfl (hload hb).2
    · exact hb
    · exact nomatch hon.symm.trans hb.1
  | readLocking r => exact ⟨trivial, fun _ _ h => h.1⟩
  | publishTable size => exact ⟨trivial, fun _ _ h => h.trans (if_neg hlooked)⟩
  | readSeeded => exact ⟨trivial, fun _ _ h => h.trans (if_neg fun hc => hrests hc.1)⟩
  | _ => exact ignores_footing rfl

theorem Watch.ignores_footing_host (hb : b = .claimed ∨ b = .leaving) (a : Access)
    (ha : a.isOfHost = true) : (footing on).Ignores b a := by
  refine ignores_footing_still (hb.imp_right .inl) (fun _ => ⟨?_, ?_⟩) ?_ ?_
  all_goals
    rintro rfl
    exact nomatch ha

theorem Watch.ignores_footing_install (a : Access) (ha : a.isOfInstall = true) :
    (footing false).Ignores .idle a := by
  refine ignores_footing_still (.inr (.inr ⟨rfl, rfl⟩)) (nomatch ·) ?_ ?_
  all_goals
    rintro rfl
    exact nomatch ha

theorem Watch.ignores_footing_removal (hb : b = .leaving ∨ on = false ∧ b = .idle) (a : Access)
    (ha : a.isOfRemoval = true) : (footing on).Ignores b a := by
  refine ignores_footing_still (.inr hb) (fun hc => ?_) ?_ ?_
  · subst hc
    simp at hb
  all_goals
    rintro rfl
    exact nomatch ha

/-- Only the claim makes a difference to whether a call has it. -/
theorem Watch.eq_idle_iff (h : (footing on).leads b a w b') (hclaim : a ≠ .claim)
    (hunclaim : a ≠ .unclaim) : b' = .idle ↔ b = .idle := by
  cases a with
  | claim => exact absurd rfl hclaim
  | unclaim => exact absurd rfl hunclaim
  | loadTable =>
    replace h :
      b' = if b = .claimed then (if w.tableSize.isSome then .rests else .looked) else b := h
    rw [h]
    split
    · rename_i hb
      split <;> simp [hb]
    · rfl
  | publishTable size =>
    replace h : b' = if b = .looked then .rests else b := h
    rw [h]
    split
    · rename_i hb
      simp [hb]
    · rfl
  | readSeeded =>
    replace h : b' = if b = .rests ∧ w.seeded = false then .leaving else b := h
    rw [h]
    split
    · rename_i hb
      simp [hb.1]
    · rfl
  | readLocking r => rw [h.1]
  | _ => exact iff_of_eq (congrArg (· = Footing.idle) h)

/-- How a call comes to rest on a table. -/
theorem Watch.rests_cases (h : (footing on).leads b a w .rests) : b = .rests ∨
    (b = .claimed ∧ a = .loadTable ∧ w.tableSize.isSome = true) ∨
      b = .looked ∧ ∃ size, a = .publishTable size := by
  cases a with
  | claim =>
    replace h : Footing.rests = if w.claimed then .idle else .claimed := h
    split at h <;> exact nomatch h
  | unclaim => exact nomatch (h : Footing.rests = .idle)
  | loadTable =>
    replace h : Footing.rests =
      if b = .claimed then (if w.tableSize.isSome then .rests else .looked) else b := h
    split at h
    · rename_i hb
      split at h
      · rename_i hsize
        exact .inr (.inl ⟨hb, rfl, hsize⟩)
      · exact nomatch h
    · exact .inl h.symm
  | publishTable size =>
    replace h : Footing.rests = if b = .looked then .rests else b := h
    split at h
    · rename_i hb
      exact .inr (.inr ⟨hb, size, rfl⟩)
    · exact .inl h.symm
  | readSeeded =>
    replace h : Footing.rests = if b = .rests ∧ w.seeded = false then .leaving else b := h
    split at h
    · exact nomatch h
    · exact .inl h.symm
  | readLocking r => exact .inl h.1.symm
  | _ => exact .inl (Eq.symm h)

/-- How a call comes to have found no table. -/
theorem Watch.looked_cases (h : (footing on).leads b a w .looked) :
    (b = .looked ∧ ∀ size, a ≠ .publishTable size) ∨
      b = .claimed ∧ a = .loadTable ∧ w.tableSize = none := by
  cases a with
  | claim =>
    replace h : Footing.looked = if w.claimed then .idle else .claimed := h
    split at h <;> exact nomatch h
  | unclaim => exact nomatch (h : Footing.looked = .idle)
  | loadTable =>
    replace h : Footing.looked =
      if b = .claimed then (if w.tableSize.isSome then .rests else .looked) else b := h
    split at h
    · rename_i hb
      split at h
      · exact nomatch h
      · rename_i hsize
        exact .inr ⟨hb, rfl, Option.not_isSome_iff_eq_none.mp hsize⟩
    · exact .inl ⟨h.symm, fun _ => nofun⟩
  | publishTable size =>
    replace h : Footing.looked = if b = .looked then .rests else b := h
    split at h
    · exact nomatch h
    · rename_i hb
      exact absurd h.symm hb
  | readSeeded =>
    replace h : Footing.looked = if b = .rests ∧ w.seeded = false then .leaving else b := h
    split at h
    · exact nomatch h
    · exact .inl ⟨h.symm, fun _ => nofun⟩
  | readLocking r => exact .inl ⟨h.1.symm, fun _ => nofun⟩
  | _ => exact .inl ⟨Eq.symm h, fun _ => nofun⟩

end

/-- A call for the host finds a table, or makes one. -/
theorem Lifecycle.install_footing : (install .host).Along (.footing true)
    (fun b _ => b = .rests) .claimed := by
  simp only [install, log, access_eq, bind_eq, bind_step, bind_done, pure_eq]
  refine Along.skip (Watch.ignores_footing rfl) fun _ _ => ⟨trivial, fun who w b hb => ?_⟩
  replace hb : b = if w.tableSize.isSome then .rests else .looked := hb
  cases htable : w.tableSize with
  | some size =>
    have hreply : (Access.loadTable.perform who w).1 = some size := htable
    obtain rfl : b = .rests := by rw [hb, htable]; rfl
    rw [hreply]
    refine Along.skip (Watch.ignores_footing rfl) fun _ _ => ?_
    exact ⟨Footing.rests_ne_looked, fun _ _ b hb => hb⟩
  | none =>
    have hreply : (Access.loadTable.perform who w).1 = none := htable
    obtain rfl : b = .looked := by rw [hb, htable]; rfl
    rw [hreply]
    refine ⟨trivial, fun who w b hl => ?_⟩
    obtain ⟨hb, hnone⟩ := hl
    rw [hb]
    have hreply : ((Access.readLocking .host).perform who w).1 = none := hnone rfl rfl
    rw [hreply]
    refine Along.skip (Watch.ignores_footing rfl) fun who w => ?_
    show (if w.lockCount .host < maxLocks then _ else _ : Program (Option Nat)).Along _ _ _
    rw [if_pos w.lockCount_host]
    refine ⟨trivial, fun _ _ b hb => ?_⟩
    obtain rfl : b = .rests := hb
    refine Along.skip (Watch.ignores_footing rfl) fun _ _ => ?_
    refine Along.skip (Watch.ignores_footing rfl) fun _ _ => ?_
    refine Along.skip (Watch.ignores_footing rfl) fun _ _ => ?_
    refine Along.skip (Watch.ignores_footing rfl) fun _ _ => ?_
    refine Along.skip (Watch.ignores_footing rfl) fun _ _ => ?_
    exact ⟨Footing.rests_ne_looked, fun _ _ b hb => hb⟩

namespace Session

theorem seed_footing : seed.Along (.footing true)
    (fun b x => b = if x.isOk then .rests else .leaving) .rests := by
  refine ⟨trivial, fun who w b hb => ?_⟩
  replace hb : b = if Footing.rests = .rests ∧ w.seeded = false then .leaving else .rests := hb
  show (if w.seeded then _ else _ : Program _).Along _ _ _
  rw [hb]
  cases w.seeded with
  | true => exact Along.skip (Watch.ignores_footing rfl) fun _ _ => rfl
  | false => exact rfl

/-- A bring-up rests on a table if it succeeds. -/
theorem bringUp_footing (e : Edition) : (bringUp e).Along (.footing true) (fun b x => match x with
    | .ok _ => b = .rests
    | .error _ => b ≠ .idle) .claimed := by
  refine (start_along (Watch.ignores_footing_host (.inl rfl)) e).bind fun b started hb => ?_
  rw [hb]
  cases started with
  | error f => exact (nomatch ·)
  | ok _ =>
    have hhandle : (Handle.install .host).Along (.footing true) (fun b _ => b = .rests) .claimed :=
      Lifecycle.install_footing.bind fun _ _ hb => hb
    refine hhandle.bind fun b handle hb => ?_
    rw [hb]
    refine seed_footing.bind fun b seeded hb => ?_
    rw [hb]
    cases seeded with
    | ok _ => exact rfl
    | error f =>
      refine (cleanUp_along (Watch.ignores_footing_host (.inr rfl)) e).bind fun b _ hb => ?_
      rw [hb]
      refine (handle.drop_along (Watch.ignores_footing_removal (.inl rfl))).bind fun b _ hb => ?_
      rw [hb]
      exact (nomatch ·)

theorem begin_footing (e : Edition) : (begin e).Along (.footing true)
    (fun b x => b = if x.isOk then .rests else .idle) .idle := by
  refine ⟨⟨rfl, rfl⟩, fun who w b hb => ?_⟩
  replace hb : b = if w.claimed then .idle else .claimed := hb
  show (if w.claimed.not = true then _ else _ : Program _).Along _ _ _
  rw [hb]
  cases w.claimed with
  | true => exact rfl
  | false =>
    refine (bringUp_footing e).bind fun b up hb => ?_
    cases up with
    | ok handle => exact Along.skip (Watch.ignores_footing rfl) fun _ _ => hb
    | error f => exact ⟨hb, fun _ _ b hb => hb⟩

theorem finish_footing (e : Edition) (x : Session) :
    (x.finish e).Along (.footing true) (fun b _ => b = .idle) .leaving := by
  refine (cleanUp_along (Watch.ignores_footing_host (.inr rfl)) e).bind fun b _ hb => ?_
  rw [hb]
  refine (x.handle.release_along (Watch.ignores_footing_removal (.inl rfl))).bind
    fun b ⟨r, g⟩ ⟨hb, hg⟩ => ?_
  obtain rfl : g = none := hg
  rw [hb]
  refine ⟨(nomatch ·), fun _ _ b hb => ?_⟩
  obtain rfl : b = .idle := hb
  exact Along.skip (Watch.ignores_footing rfl) fun _ _ => rfl

end Session

/-- **Every operation goes by these steps.**  One that ends a session has the claim from the start,
and one that has begun a session rests on a table. -/
theorem Operation.footing_along (e : Edition) (op : Operation) :
    (op.program e).Along (.footing op.isOnSession)
      (fun b p => b = if p.isSession then .rests else .idle)
      (if op.endsSession then .leaving else .idle) := by
  cases hon : op.isOnSession with
  | false =>
    have hends : op.endsSession = false :=
      Bool.eq_false_iff.mpr fun h => nomatch hon.symm.trans (isOnSession_of_endsSession h)
    rw [hends]
    refine (table_along Watch.ignores_footing_install
      (Watch.ignores_footing_removal (.inr ⟨rfl, rfl⟩)) rfl e hon).mono fun b p hb => ?_
    rw [hb.1, hb.2]
    rfl
  | true =>
    cases op with
    | beginSession =>
      refine (Session.begin_footing e).bind fun b begun hb => ?_
      cases begun with
      | ok x => exact hb
      | error f => exact hb
    | finishSession x => exact (Session.finish_footing e x).bind fun _ _ hb => hb
    | _ => exact nomatch hon

theorem Watch.exists_footing {on : Bool} {b : Footing} {a : Access} {w : World}
    (h : b = .looked → w.locking .host = none) : ∃ b', (footing on).leads b a w b' := by
  cases a with
  | readLocking r => exact ⟨b, rfl, fun hb hr => hr ▸ h hb⟩
  | _ => exact ⟨_, rfl⟩

end CallbackLocks
