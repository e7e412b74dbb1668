import CallbackLocks.Proofs.Runs.Ledger

/-!
# What a call may do, and what it may count on

Threads get in between the accesses of a call.  What each of them may do is said once, for single
accesses, and everything that holds of runs is drawn from it.

* `Ledger.Alike`     nothing that matters to the table and its registration differs
* `Ledger.Admits`    what has to hold for an access to be in order: tables come and go, and our
                     callbacks with them, under the lifecycle lock only
* `Ledger.Sound`     what holds at every moment
* `Ledger.Rely`      what a call may count on while others do what is in order for them
* `Program.Safe`     a program makes only accesses that are in order, whatever others do in between

With `careful`, no removal names a wrong registry and nobody else registers our dispatcher; then a
registry that holds our dispatcher is the one that the table was made for.
-/

namespace CallbackLocks

/-! ## what a registry holds -/

namespace World

theorem locking_register_eq (w : World) (r r' : Registry) (f : Option LockCallback) :
    (w.register r f).locking r' =
      if r' = r then (if w.keeps r then f else none) else w.locking r' := by
  by_cases hk : w.keeps r = true
  · rw [locking_register w r r' f hk, if_pos hk]
  · rw [register, if_neg hk, if_neg hk]
    by_cases hr : r' = r
    · rw [if_pos hr, hr, locking, if_neg hk]
    · rw [if_neg hr]

theorem register_eq (w : World) (r : Registry) (f : Option LockCallback) :
    ∃ s, w.register r f = { w with slots := s } := by
  unfold register
  split
  · exact ⟨_, rfl⟩
  · exact ⟨_, rfl⟩

theorem registerId_eq (w : World) (r : Registry) (f : Option IdCallback) :
    ∃ s, w.registerId r f = { w with slots := s } ∧
      ∀ r', (s r').locking = (w.slots r').locking := by
  unfold registerId
  split
  · refine ⟨_, rfl, fun r' => ?_⟩
    show (if r' = r then { w.slots r with id := f } else w.slots r').locking = _
    split
    · rename_i hr
      rw [hr]
    · rfl
  · exact ⟨_, rfl, fun _ => rfl⟩

theorem locking_registerId (w : World) (r r' : Registry) (f : Option IdCallback) :
    (w.registerId r f).locking r' = w.locking r' := by
  obtain ⟨s, hs, hl⟩ := w.registerId_eq r f
  rw [hs]
  show (if w.keeps r' then (s r').locking else none) = _
  rw [hl]
  rfl

theorem isInstalled_eq (w : World) : w.isInstalled = w.tableSize.isSome := by
  simp [isInstalled, tableSize]

end World

namespace Ledger

/-! ## ledgers that are alike -/

/-- The two ledgers agree on the table, its registration and the lifecycle lock. -/
structure Alike (l l' : Ledger) : Prop where
  lifecycle : l'.world.lifecycle = l.world.lifecycle
  generation : l'.world.generation = l.world.generation
  tableSize : l'.world.tableSize = l.world.tableSize
  locking : ∀ r, l'.world.locking r = l.world.locking r
  makers : l'.makers = l.makers
  origin : l'.origin = l.origin

/-- The access changes nothing of what ledgers have to agree on to be alike. -/
def IsQuiet : Access → Bool
  | .takeLifecycle | .freeLifecycle | .publishTable _ | .withdrawTable | .countInstall
  | .setLocking _ _ => false
  | _ => true

theorem alike_perform (d : Deed) (who : Thread) {a : Access} (l : Ledger) (h : IsQuiet a = true) :
    Alike l (l.perform d who a).2 := by
  cases a with
  | takeLifecycle | freeLifecycle | publishTable | withdrawTable | countInstall | setLocking =>
    exact nomatch h
  | setId r f =>
    have hl := fun r' => l.world.locking_registerId r r' f
    obtain ⟨s, hs, -⟩ := l.world.registerId_eq r f
    refine ⟨?_, ?_, ?_, hl, rfl, rfl⟩
    · show (l.world.registerId r f).lifecycle = _
      rw [hs]
    · show (l.world.registerId r f).generation = _
      rw [hs]
    · show (l.world.registerId r f).tableSize = _
      rw [hs]
      rfl
  | loadTable | readGeneration | countLocks | readLocking | claim | unclaim | initHost | startHost
  | loadErrorStrings | drainErrors | readSeeded | cleanAlgorithms | cleanExtraData
  | freeErrorStrings | log => exact ⟨rfl, rfl, rfl, fun _ => rfl, rfl, rfl⟩

/-! ## accesses that are in order -/

/-- What has to hold for an access by `who` to be in order. -/
def Admits (careful : Prop) (who : Thread) (l : Ledger) : Access → Prop
  | .freeLifecycle => l.world.lifecycle = some who ∧ l.makers.length = l.world.generation
  | .publishTable _ => l.world.lifecycle = some who ∧ l.origin = none
  | .withdrawTable => l.world.lifecycle = some who ∧
      (careful → ∀ r, l.world.locking r ≠ some .own)
  | .setLocking r (some .own) => l.world.lifecycle = some who ∧
      ∃ m, l.origin = some m ∧ m.operation.registry = r
  | .setLocking _ (some (.foreign _)) => False
  | .countInstall | .setLocking _ none | .setId _ _ => l.world.lifecycle = some who
  | _ => True

/-- What holds at every moment. -/
structure Sound (careful : Prop) (l : Ledger) : Prop where
  table : l.world.isInstalled = l.origin.isSome
  newest : ∀ m, l.origin = some m → l.makers.getLast? = some m
  settled : l.world.lifecycle = none → l.makers.length = l.world.generation
  registered : careful → ∀ r, l.world.locking r = some .own →
    ∃ m, l.origin = some m ∧ m.operation.registry = r

/-- What a call of `d` by `who` may count on while others do what is in order for them: the tables
that it made, and, as long as it has the lifecycle lock, that nothing is changed but what
registries hold, and that our dispatcher is not registered anew. -/
structure Rely (careful : Prop) (d : Deed) (who : Thread) (l l' : Ledger) : Prop where
  makers : ∃ more, l'.makers = l.makers ++ more ∧ ∀ m ∈ more, m.call ≠ d.call
  away : l.world.lifecycle ≠ some who → l'.world.lifecycle ≠ some who
  inside : l.world.lifecycle = some who → l'.world.lifecycle = some who ∧
    l'.world.generation = l.world.generation ∧ l'.world.tableSize = l.world.tableSize ∧
    l'.makers = l.makers ∧ l'.origin = l.origin ∧
    (careful → ∀ r, l'.world.locking r = some .own → l.world.locking r = some .own)

variable {careful : Prop} {d d' : Deed} {who who' : Thread} {l l' l'' : Ledger} {a : Access}

theorem Alike.sound (h : Alike l l') (hs : Sound careful l) : Sound careful l' where
  table := by rw [World.isInstalled_eq, h.tableSize, ← World.isInstalled_eq, h.origin, hs.table]
  newest := by rw [h.origin, h.makers]; exact hs.newest
  settled := by rw [h.lifecycle, h.makers, h.generation]; exact hs.settled
  registered := by
    intro hc r
    rw [h.locking r, h.origin]
    exact hs.registered hc r

theorem Alike.rely (h : Alike l l') : Rely careful d who l l' where
  makers := ⟨[], by rw [h.makers, List.append_nil], fun _ hm => absurd hm List.not_mem_nil⟩
  away := by rw [h.lifecycle]; exact id
  inside := fun hl => ⟨h.lifecycle.trans hl, h.generation, h.tableSize, h.makers, h.origin,
    fun _ r hr => (h.locking r).symm.trans hr⟩

theorem Rely.refl (careful : Prop) (d : Deed) (who : Thread) (l : Ledger) :
    Rely careful d who l l :=
  Alike.rely ⟨rfl, rfl, rfl, fun _ => rfl, rfl, rfl⟩

theorem Rely.trans (h : Rely careful d who l l') (h' : Rely careful d who l' l'') :
    Rely careful d who l l'' where
  makers := by
    obtain ⟨more, hm, hne⟩ := h.makers
    obtain ⟨more', hm', hne'⟩ := h'.makers
    refine ⟨more ++ more', by rw [hm', hm, List.append_assoc], fun m hmem => ?_⟩
    rcases List.mem_append.mp hmem with hmem | hmem
    · exact hne m hmem
    · exact hne' m hmem
  away := fun hl => h'.away (h.away hl)
  inside := by
    intro hl
    obtain ⟨hl₁, hg₁, ht₁, hm₁, ho₁, hs₁⟩ := h.inside hl
    obtain ⟨hl₂, hg₂, ht₂, hm₂, ho₂, hs₂⟩ := h'.inside hl₁
    exact ⟨hl₂, hg₂.trans hg₁, ht₂.trans ht₁, hm₂.trans hm₁, ho₂.trans ho₁,
      fun hc r hr => hs₁ hc r (hs₂ hc r hr)⟩

/-! ## what comes of an access that is in order -/

theorem Sound.perform (hs : Sound careful l) (h : Admits careful who l a) :
    Sound careful (l.perform d who a).2 := by
  by_cases hq : IsQuiet a = true
  · exact (alike_perform d who l hq).sound hs
  cases a with
  | takeLifecycle =>
    exact ⟨hs.table, hs.newest, (fun hl => nomatch hl), hs.registered⟩
  | freeLifecycle =>
    exact ⟨hs.table, hs.newest, fun _ => h.2, hs.registered⟩
  | publishTable size =>
    obtain ⟨hl, ho⟩ := h
    refine ⟨rfl, fun m hm => ?_, (fun hl' => nomatch hl.symm.trans hl'), fun hc r hr => ?_⟩
    · rw [← hm]
      exact List.getLast?_concat
    · obtain ⟨m, hm, -⟩ := hs.registered hc r hr
      exact nomatch ho.symm.trans hm
  | withdrawTable =>
    obtain ⟨hl, hr⟩ := h
    exact ⟨rfl, (fun m hm => nomatch hm), (fun hl' => nomatch hl.symm.trans hl'),
      fun hc r hown => absurd hown (hr hc r)⟩
  | countInstall =>
    have hl : l.world.lifecycle = some who := h
    exact ⟨hs.table, hs.newest, (fun hl' => nomatch hl.symm.trans hl'), hs.registered⟩
  | setLocking r f =>
    have hlock := fun r' => l.world.locking_register_eq r r' f
    obtain ⟨s, hw⟩ := l.world.register_eq r f
    refine ⟨?_, hs.newest, ?_, fun hc r' hr' => ?_⟩
    · show (l.world.register r f).isInstalled = _
      rw [hw]
      exact hs.table
    · show (l.world.register r f).lifecycle = none → _ = (l.world.register r f).generation
      rw [hw]
      exact hs.settled
    · replace hr' : (l.world.register r f).locking r' = some .own := hr'
      rw [hlock r'] at hr'
      split at hr'
      · rename_i hr
        subst hr
        split at hr'
        · subst hr'
          exact h.2
        · exact nomatch hr'
      · exact hs.registered hc r' hr'
  | _ => exact absurd rfl hq

/-- What is in order for one thread is what others may count on. -/
theorem Admits.rely (h : Admits careful who' l a) (hen : a.isEnabled l.world = true)
    (hw : who' ≠ who) (hd : d'.call ≠ d.call) : Rely careful d who l (l.perform d' who' a).2 := by
  by_cases hq : IsQuiet a = true
  · exact (alike_perform d' who' l hq).rely
  have hsame : ∃ more : List Deed, l.makers = l.makers ++ more ∧ ∀ m ∈ more, m.call ≠ d.call :=
    ⟨[], (List.append_nil _).symm, fun _ hm => absurd hm List.not_mem_nil⟩
  have hother : l.world.lifecycle = some who' → l.world.lifecycle ≠ some who := by
    intro hl hl'
    exact hw (Option.some.inj (hl.symm.trans hl'))
  cases a with
  | takeLifecycle =>
    have hfree : l.world.lifecycle = none := Option.isNone_iff_eq_none.mp hen
    exact ⟨hsame, fun _ hl => hw (Option.some.inj hl),
      (fun hl => nomatch hfree.symm.trans hl)⟩
  | freeLifecycle =>
    exact ⟨hsame, (fun _ hl => nomatch hl), fun hl => absurd hl (hother h.1)⟩
  | publishTable size =>
    refine ⟨⟨[d'], rfl, fun m hm => ?_⟩, id, fun hl => absurd hl (hother h.1)⟩
    rw [List.mem_singleton] at hm
    rwa [hm]
  | withdrawTable => exact ⟨hsame, id, fun hl => absurd hl (hother h.1)⟩
  | countInstall => exact ⟨hsame, id, fun hl => absurd hl (hother h)⟩
  | setLocking r f =>
    have hl : l.world.lifecycle = some who' := by
      cases f with
      | none => exact h
      | some f => cases f with
        | own => exact h.1
        | foreign k => exact h.elim
    obtain ⟨s, hw'⟩ := l.world.register_eq r f
    refine ⟨hsame, fun hne => ?_, fun hl' => absurd hl' (hother hl)⟩
    show (l.world.register r f).lifecycle ≠ some who
    rw [hw']
    exact hne
  | _ => exact absurd rfl hq

end Ledger

end CallbackLocks
