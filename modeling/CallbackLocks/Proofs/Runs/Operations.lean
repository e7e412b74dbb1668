import CallbackLocks.Proofs.Runs.Safe

/-!
# Every operation keeps to what is in order

* `install_safe`     a call that makes a table tells its generation, and the table is registered
                     between being there and being counted
* `remove_safe`      callbacks are cleared at the registry of the table before the table goes
* `Ledger.Names`     a handle, if it has a generation, names the registry of that table
* `Delivers`         what a thread may be left with once a call has ended
* `Operation.safe`   **every operation is safe, and delivers**
-/

namespace CallbackLocks

open Ledger Program

section Operations

variable {careful : Prop} {d : Deed} {who : Thread} {l : Ledger} {r : Registry}
  {makers : List Deed} {origin : Option Deed} {generation : Nat}

theorem stable_made (careful : Prop) (d : Deed) (who : Thread) (h : Handle) :
    Stable careful d who fun l => Away who l ∧ Records l.makers d h :=
  (stable_away careful d who).and (stable_records careful d who h)

/-! ## making a table -/

theorem leave_safe (line : LogLine) (hr : r = d.operation.registry)
    (hm : ∀ m ∈ makers, m.call ≠ d.call) (h : Held who makers origin makers.length l) :
    (step (.log line) fun _ => step .freeLifecycle fun _ => done none).Safe careful d who
      (fun g l' => Away who l' ∧ Records l'.makers d ⟨r, g⟩) l := by
  refine Safe.held rfl h fun _ l₁ _ _ hl₁ => ?_
  refine Safe.free hl₁ fun l₂ haway hmakers => ?_
  refine Safe.done (stable_made careful d who ⟨r, none⟩) ⟨haway, ?_⟩
  rw [hmakers]
  exact Records.of_none hr hm

/-- The table is there before it is registered, and registered before it is counted. -/
theorem make_safe (size : Nat) (hr : r = d.operation.registry)
    (hm : ∀ m ∈ makers, m.call ≠ d.call) (h : Held who makers none makers.length l) :
    (step (.publishTable size) fun _ => step (.setId r (some .own)) fun _ =>
      step (.setLocking r (some .own)) fun _ => step .countInstall fun _ =>
      step (.log (.tableInstalled size)) fun _ => step .readGeneration fun g =>
      step .freeLifecycle fun _ => done (some g)).Safe careful d who
      (fun g l' => Away who l' ∧ Records l'.makers d ⟨r, g⟩) l := by
  refine Safe.publish h fun l₁ hl₁ => ?_
  refine Safe.held rfl hl₁ fun _ l₂ _ _ hl₂ => ?_
  refine Safe.register hl₂ hr.symm fun l₃ hl₃ => ?_
  refine Safe.count hl₃ fun l₄ hl₄ => ?_
  refine Safe.held rfl hl₄ fun _ l₅ _ _ hl₅ => ?_
  refine Safe.held rfl hl₅ fun l₆ l₇ hl₆ _ hl₇ => ?_
  have hg : (Access.readGeneration.perform who l₆.world).1 = makers.length + 1 := hl₆.generation
  have hlen : makers.length + 1 = (makers ++ [d]).length := by
    rw [List.length_append, List.length_singleton]
  rw [hlen] at hl₇
  rw [hg]
  refine Safe.free hl₇ fun l₈ haway hmakers => ?_
  refine Safe.done (stable_made careful d who ⟨r, some (makers.length + 1)⟩) ⟨haway, ?_⟩
  rw [hmakers]
  exact Records.of_newest hr hm

theorem Ledger.Sound.origin_eq_none (hs : l.Sound careful) (h : l.world.tableSize = none) :
    l.origin = none := by
  have htable := hs.table
  rw [World.isInstalled_eq, h] at htable
  exact Option.isNone_iff_eq_none.mp (Option.isSome_eq_false_iff.mp htable.symm)

theorem install_safe (hr : r = d.operation.registry) (h : Away who l ∧ Fresh d l) :
    (Lifecycle.install r).Safe careful d who
      (fun g l' => Away who l' ∧ Records l'.makers d ⟨r, g⟩) l := by
  simp only [Lifecycle.install, Lifecycle.log, access_eq, bind_eq, bind_step, bind_done, pure_eq]
  refine Safe.take ((stable_away careful d who).and (stable_fresh careful d who)) h ?_
  intro l₀ l₁ ⟨_, hfresh⟩ _ _ hl₁
  refine Safe.held rfl hl₁ fun l₂ l₃ hl₂ hs₂ hl₃ => ?_
  cases htable : (Access.loadTable.perform who l₂.world).1 with
  | some size => exact leave_safe _ hr hfresh hl₃
  | none =>
    have horigin : l₀.origin = none := hl₂.origin ▸ hs₂.origin_eq_none htable
    rw [horigin] at hl₃
    refine Safe.held rfl hl₃ fun l₄ l₅ _ _ hl₅ => ?_
    cases (Access.readLocking r).perform who l₄.world |>.1 with
    | some f => exact leave_safe _ hr hfresh hl₅
    | none =>
      refine Safe.held rfl hl₅ fun l₆ l₇ _ _ hl₇ => ?_
      generalize ((Access.countLocks r).perform who l₆.world).1 = size
      show (if size < Lifecycle.maxLocks then _ else _ : Program (Option Nat)).Safe _ _ _ _ _
      split
      · exact make_safe size hr hfresh hl₇
      · exact Safe.free hl₇ fun _ haway _ => haway

/-! ## removing a table -/

/-- Callers have the lifecycle lock and name the registry of the table. -/
theorem remove_safe (hr : careful → ∀ m, origin = some m → m.operation.registry = r)
    (h : Held who makers origin generation l) :
    (Lifecycle.remove r).Safe careful d who
      (fun _ l' => ∃ origin', Held who makers origin' generation l') l := by
  have hpost : Stable careful d who fun l' => ∃ o, Held who makers o generation l' :=
    fun l' l'' h' ⟨o, ho⟩ => ⟨o, stable_held careful d who makers o generation l' l'' h' ho⟩
  simp only [Lifecycle.remove, Lifecycle.log, access_eq, bind_eq, bind_step, bind_done]
  refine Safe.held rfl h fun l₁ l₂ _ _ hl₂ => ?_
  cases (Access.loadTable.perform who l₁.world).1 with
  | none =>
    refine Safe.held rfl hl₂ fun _ l₃ _ _ hl₃ => ?_
    exact Safe.done hpost ⟨origin, hl₃⟩
  | some size =>
    refine Safe.held rfl hl₂ fun _ l₃ _ _ hl₃ => ?_
    refine Safe.clear hl₃ hr fun l₄ hl₄ => ?_
    refine Safe.withdraw hl₄ fun l₅ hl₅ => ?_
    refine Safe.held rfl hl₅ fun _ l₆ _ _ hl₆ => ?_
    exact Safe.done hpost ⟨none, hl₆⟩

theorem teardown_safe (hd : d.operation = .teardown r) (h : Away who l) :
    (Lifecycle.teardown r).Safe careful d who (fun _ l' => Away who l') l := by
  simp only [Lifecycle.teardown, access_eq, bind_eq, bind_step, bind_done]
  refine Safe.take (stable_away careful d who) h fun l₀ l₁ _ _ hperm hl₁ => ?_
  have hr : careful → ∀ m, l₀.origin = some m → m.operation.registry = r :=
    fun hc m hm => hperm hc rfl r hd m hm
  refine Safe.bind (remove_safe hr hl₁) fun _ l₂ ⟨_, hl₂⟩ => ?_
  exact Safe.free hl₂ fun l₃ haway _ => Safe.done (stable_away careful d who) haway

/-! ## handles -/

theorem handle_safe (hr : r = d.operation.registry) (h : Away who l ∧ Fresh d l) :
    (Handle.install r).Safe careful d who (fun h' l' => Away who l' ∧ Records l'.makers d h') l :=
  Safe.bind (install_safe hr h) fun g _ hl => Safe.done (stable_made careful d who ⟨r, g⟩) hl

/-- If the handle has a generation, it names the registry that this table was made for. -/
def Ledger.Names (h : Handle) (l : Ledger) : Prop :=
  ∀ g, h.generation = some g →
    ∃ j m, g = j + 1 ∧ l.makers[j]? = some m ∧ m.operation.registry = h.registry

theorem Records.names {d' : Deed} {h : Handle} (hr : Records l.makers d' h) : Names h l := by
  intro g hg
  obtain ⟨j, hj, hm⟩ := hr.made g hg
  exact ⟨j, d', hj, hm, hr.registry.symm⟩

theorem stable_names (careful : Prop) (d : Deed) (who : Thread) (h : Handle) :
    Stable careful d who (Names h) := by
  intro l l' hrely hl g hg
  obtain ⟨j, m, hj, hm, hr⟩ := hl g hg
  obtain ⟨more, hmore, -⟩ := hrely.makers
  have hlt := (List.getElem?_eq_some_iff.mp hm).1
  exact ⟨j, m, hj, by rw [hmore, List.getElem?_append_left hlt, hm], hr⟩

/-- The newest table is the only one that a number as high as the count can stand for. -/
theorem isCurrent_safe (g : Nat) (h : Held who makers origin makers.length l) :
    (Lifecycle.isCurrent g).Safe careful d who
      (fun current l' => Held who makers origin makers.length l' ∧
        (current = true → makers.length = g)) l := by
  have hpost : ∀ current : Bool, Stable careful d who fun l' =>
      Held who makers origin makers.length l' ∧ (current = true → makers.length = g) :=
    fun _ l' l'' h' hl' => ⟨stable_held careful d who _ _ _ l' l'' h' hl'.1, hl'.2⟩
  simp only [Lifecycle.isCurrent, access_eq, bind_eq, bind_step, bind_done, pure_eq]
  refine Safe.held rfl h fun l₁ l₂ hl₁ _ hl₂ => ?_
  have hg : (Access.readGeneration.perform who l₁.world).1 = makers.length := hl₁.generation
  rw [hg]
  split
  · rename_i heq
    refine Safe.held rfl hl₂ fun l₃ l₄ _ _ hl₄ => ?_
    exact Safe.done (hpost _) ⟨hl₄, fun _ => heq⟩
  · exact Safe.done (hpost _) ⟨hl₂, fun h' => nomatch h'⟩

theorem removeIfCurrent_safe {h : Handle} {g : Nat} (hg : h.generation = some g)
    (hl : Away who l ∧ Names h l) :
    (Lifecycle.removeIfCurrent h.registry g).Safe careful d who (fun _ l' => Away who l') l := by
  simp only [Lifecycle.removeIfCurrent, Lifecycle.log, access_eq, bind_eq, bind_step, bind_done]
  refine Safe.take ((stable_away careful d who).and (stable_names careful d who h)) hl ?_
  intro l₀ l₁ ⟨_, hnames⟩ hs₀ _ hl₁
  have hfree : ∀ l, (∃ o, Held who l₀.makers o l₀.makers.length l) →
      (step .freeLifecycle done).Safe careful d who (fun _ l' => Away who l') l :=
    fun l ⟨_, hl⟩ => Safe.free hl fun _ haway _ => Safe.done (stable_away careful d who) haway
  refine Safe.bind (isCurrent_safe g hl₁) fun current l₂ ⟨hl₂, hcurrent⟩ => ?_
  cases current with
  | false =>
    exact Safe.held rfl hl₂ fun _ l₃ _ _ hl₃ => hfree l₃ ⟨_, hl₃⟩
  | true =>
    refine Safe.bind (remove_safe (fun _ m hm => ?_) hl₂) fun _ l₃ hl₃ => hfree l₃ hl₃
    -- the table is the newest one, and that is the one of the handle
    obtain ⟨j, m', hj, hm', hr⟩ := hnames g hg
    have hlast := hs₀.newest m hm
    rw [List.getLast?_eq_getElem?, hcurrent rfl, hj, Nat.add_sub_cancel, hm'] at hlast
    rw [← Option.some.inj hlast]
    exact hr

theorem release_safe {h : Handle} (hl : Away who l ∧ Names h l) :
    h.release.Safe careful d who (fun h' l' => Away who l' ∧ h'.generation = none) l := by
  have hpost : ∀ h' : Handle, Stable careful d who fun l' => Away who l' ∧ h'.generation = none :=
    fun _ l' l'' hrely hl' => ⟨hrely.away hl'.1, hl'.2⟩
  unfold Handle.release
  split
  · rename_i hg
    exact Safe.done (hpost h) ⟨hl.1, hg⟩
  · rename_i g hg
    refine Safe.bind (removeIfCurrent_safe hg hl) fun _ l' haway => ?_
    exact Safe.done (hpost _) ⟨haway, rfl⟩

theorem drop_safe {h : Handle} (hl : Away who l ∧ Names h l) :
    h.drop.Safe careful d who (fun _ l' => Away who l') l :=
  Safe.bind (release_safe hl) fun _ _ hl' => Safe.done (stable_away careful d who) hl'.1

/-- A handle that has given up its table does nothing when it goes. -/
theorem drop_safe_of_none {h : Handle} (hl : Away who l) (hg : h.generation = none) :
    h.drop.Safe careful d who (fun _ l' => Away who l') l :=
  drop_safe ⟨hl, fun _ hg' => nomatch hg.symm.trans hg'⟩

theorem uninstall_safe {h : Handle} (hl : Away who l ∧ Names h l) :
    h.uninstall.Safe careful d who (fun _ l' => Away who l') l :=
  Safe.bind (release_safe hl) fun _ _ hl' => drop_safe_of_none hl'.1 hl'.2

/-! ## sessions -/

variable {P : Ledger → Prop} {e : Edition}

theorem start_safe (hP : Stable careful d who P) (h : P l) :
    (Session.start e).Safe careful d who (fun _ => P) l := by
  cases e with
  | modern =>
    simp only [Session.start, access_eq, bind_eq, bind_step, bind_done, pure_eq]
    exact Safe.quiet hP rfl (fun _ _ => trivial) h fun _ _ _ _ hl₁ => Safe.done hP hl₁
  | legacy =>
    simp only [Session.start, access_eq, bind_eq, bind_step, bind_done, pure_eq]
    refine Safe.quiet hP rfl (fun _ _ => trivial) h fun l₁ l₂ _ _ hl₂ => ?_
    split
    · exact Safe.quiet hP rfl (fun _ _ => trivial) hl₂ fun _ _ _ _ hl₃ => Safe.done hP hl₃
    · exact Safe.quiet hP rfl (fun _ _ => trivial) hl₂ fun _ _ _ _ hl₃ => Safe.done hP hl₃

theorem cleanUp_safe (hP : Stable careful d who P) (h : P l) :
    (Session.cleanUp e).Safe careful d who (fun _ => P) l := by
  cases e with
  | modern => exact Safe.done hP h
  | legacy =>
    simp only [Session.cleanUp, access_eq, bind_eq, bind_step, bind_done]
    refine Safe.quiet hP rfl (fun _ _ => trivial) h fun _ _ _ _ hl₁ => ?_
    refine Safe.quiet hP rfl (fun _ _ => trivial) hl₁ fun _ _ _ _ hl₂ => ?_
    exact Safe.quiet hP rfl (fun _ _ => trivial) hl₂ fun _ _ _ _ hl₃ => Safe.done hP hl₃

theorem seed_safe (hP : Stable careful d who P) (h : P l) :
    Session.seed.Safe careful d who (fun _ => P) l := by
  simp only [Session.seed, Lifecycle.log, access_eq, bind_eq, bind_step, bind_done, pure_eq]
  refine Safe.quiet hP rfl (fun _ _ => trivial) h fun l₁ l₂ _ _ hl₂ => ?_
  split
  · exact Safe.quiet hP rfl (fun _ _ => trivial) hl₂ fun _ _ _ _ hl₃ => Safe.done hP hl₃
  · exact Safe.done hP hl₂

/-- What is known after a call that was to bring something with a handle. -/
def Brings {α : Type} (handle : α → Handle) (d : Deed) (who : Thread) :
    Except Failure α → Ledger → Prop
  | .ok x, l => Away who l ∧ Records l.makers d (handle x)
  | .error _, l => Away who l

theorem stable_brings {α : Type} (careful : Prop) (handle : α → Handle) (d : Deed) (who : Thread)
    (x : Except Failure α) : Stable careful d who (Brings handle d who x) := by
  cases x with
  | ok x => exact stable_made careful d who (handle x)
  | error f => exact stable_away careful d who

theorem bringUp_safe (hd : Registry.host = d.operation.registry) (h : Away who l ∧ Fresh d l) :
    (Session.bringUp e).Safe careful d who (Brings id d who) l := by
  have haway := stable_away careful d who
  have hpost := stable_brings careful id d who
  refine Safe.bind (start_safe (haway.and (stable_fresh careful d who)) h) fun started l₁ hl₁ => ?_
  cases started with
  | error f => exact Safe.done (hpost (.error f)) hl₁.1
  | ok u =>
    refine Safe.bind (handle_safe hd hl₁) fun handle l₂ hl₂ => ?_
    refine Safe.bind (seed_safe (stable_made careful d who handle) hl₂) fun seeded l₃ hl₃ => ?_
    cases seeded with
    | ok u => exact Safe.done (hpost (.ok handle)) hl₃
    | error f =>
      refine Safe.bind (cleanUp_safe (stable_made careful d who handle) hl₃) fun _ l₄ hl₄ => ?_
      refine Safe.bind (drop_safe ⟨hl₄.1, hl₄.2.names⟩) fun _ l₅ hl₅ => ?_
      exact Safe.done (hpost (.error f)) hl₅

theorem begin_safe (hd : Registry.host = d.operation.registry) (h : Away who l ∧ Fresh d l) :
    (Session.begin e).Safe careful d who (Brings Session.handle d who) l := by
  have hpost := stable_brings careful Session.handle d who
  simp only [Session.begin, Lifecycle.log, access_eq, bind_eq, bind_step, bind_done, pure_eq]
  refine Safe.quiet ((stable_away careful d who).and (stable_fresh careful d who)) rfl
    (fun _ _ => trivial) h fun l₁ l₂ _ _ hl₂ => ?_
  split
  · refine Safe.bind (bringUp_safe hd hl₂) fun brought l₃ hl₃ => ?_
    cases brought with
    | ok handle =>
      refine Safe.quiet (stable_made careful d who handle) rfl (fun _ _ => trivial) hl₃ ?_
      exact fun _ _ _ _ hl₄ => Safe.done (hpost (.ok ⟨handle⟩)) hl₄
    | error f =>
      refine Safe.quiet (stable_away careful d who) rfl (fun _ _ => trivial) hl₃ ?_
      exact fun _ _ _ _ hl₄ => Safe.done (hpost (.error f)) hl₄
  · exact Safe.done (hpost (.error .alreadyInitialized)) hl₂.1

theorem finish_safe {x : Session} (h : Away who l ∧ Names x.handle l) :
    (x.finish e).Safe careful d who (fun _ l' => Away who l') l := by
  have haway := stable_away careful d who
  have hnames := stable_names careful d who x.handle
  refine Safe.bind (cleanUp_safe (haway.and hnames) h) fun _ l₁ hl₁ => ?_
  refine Safe.bind (release_safe hl₁) fun handle l₂ ⟨hl₂, hg⟩ => ?_
  refine Safe.quiet haway rfl (fun _ _ => trivial) hl₂ fun _ l₃ _ _ hl₃ => ?_
  refine Safe.quiet haway rfl (fun _ _ => trivial) hl₃ fun _ l₄ _ _ hl₄ => ?_
  exact drop_safe_of_none hl₄ hg

/-! ## operations -/

def Prize.handle? : Prize → Option Handle
  | .handle h => some h
  | .session x => some x.handle
  | .nothing | .refusal => none

@[simp] theorem Prize.handle?_ofAnswer (answer : Bool) : (ofAnswer answer).handle? = none := by
  cases answer <;> rfl

def Operation.returnsHandle : Operation → Bool
  | newHandle _ | beginSession => true
  | install _ | teardown _ | drop _ | uninstall _ | ask _ | finishSession _ => false

/-- What a thread may be left with once a call has ended: not the lifecycle lock, and no handle
but one that stands for this call. -/
def Delivers (d : Deed) (who : Thread) (p : Prize) (l : Ledger) : Prop :=
  Away who l ∧ ∀ h, p.handle? = some h →
    d.operation.returnsHandle = true ∧ Records l.makers d h

theorem stable_delivers (careful : Prop) (d : Deed) (who : Thread) (p : Prize) :
    Stable careful d who (Delivers d who p) :=
  fun l l' hrely hl => ⟨hrely.away hl.1,
    fun h hh => ⟨(hl.2 h hh).1, stable_records careful d who h l l' hrely (hl.2 h hh).2⟩⟩

/-- the handle that an operation gives up -/
def Operation.handle? : Operation → Option Handle
  | drop h | uninstall h => some h
  | finishSession x => some x.handle
  | install _ | teardown _ | newHandle _ | ask _ | beginSession => none

namespace Handle

/-- what is left of an inquiry when the number has been compared -/
def look (same : Prop) [Decidable same] : Program Prize :=
  (if same then Lifecycle.isInstalled else return false).bind fun answer => done (.ofAnswer answer)

theorem inquiry_of_none {h : Handle} (hg : h.generation = none) :
    h.inquiry = done (.ofAnswer false) := by
  rw [inquiry, owns, hg]
  rfl

theorem inquiry_of_some {h : Handle} {g : Nat} (hg : h.generation = some g) :
    h.inquiry = step .takeLifecycle fun _ => step .readGeneration fun n =>
      step .freeLifecycle fun _ => look (n = g) := by
  rw [inquiry, owns, hg]
  rfl

theorem look_of_same {same : Prop} [Decidable same] (h : same) :
    look same = step .loadTable fun size => done (.ofAnswer size.isSome) := by
  rw [look, if_pos h]
  rfl

theorem look_of_not_same {same : Prop} [Decidable same] (h : ¬ same) :
    look same = done (.ofAnswer false) := by
  rw [look, if_neg h]
  rfl

end Handle

theorem inquiry_safe (h : Handle) (hl : Away who l) :
    h.inquiry.Safe careful d who (Delivers d who) l := by
  have haway := stable_away careful d who
  have hdone : ∀ (b : Bool) {l' : Ledger}, Away who l' →
      (done (.ofAnswer b) : Program Prize).Safe careful d who (Delivers d who) l' := by
    intro b l' hl
    refine Safe.done (stable_delivers careful d who _) ⟨hl, fun h' hh => ?_⟩
    rw [Prize.handle?_ofAnswer] at hh
    exact nomatch hh
  cases hg : h.generation with
  | none =>
    rw [Handle.inquiry_of_none hg]
    exact hdone false hl
  | some g =>
    rw [Handle.inquiry_of_some hg]
    refine Safe.take haway hl fun l₁ l₂ _ _ _ hl₂ => ?_
    refine Safe.held rfl hl₂ fun l₃ l₄ hl₃ _ hl₄ => ?_
    refine Safe.free hl₄ fun l₅ hl₅ _ => ?_
    by_cases hsame : (Access.readGeneration.perform who l₃.world).1 = g
    · rw [Handle.look_of_same hsame]
      exact Safe.quiet haway rfl (fun _ _ => trivial) hl₅ fun _ l₆ _ _ hl₆ => hdone _ hl₆
    · rw [Handle.look_of_not_same hsame]
      exact hdone false hl₅

/-- **Every operation is safe, and delivers.** -/
theorem Operation.safe (careful : Prop) (e : Edition) (d : Deed) {who : Thread} {l : Ledger}
    (h : Away who l ∧ Fresh d l) (hn : ∀ h, d.operation.handle? = some h → Names h l) :
    (d.operation.program e).Safe careful d who (Delivers d who) l := by
  have hpost := stable_delivers careful d who
  have hnothing : ∀ l', Away who l' → Delivers d who .nothing l' :=
    fun _ hl => ⟨hl, fun _ hh => nomatch hh⟩
  cases hd : d.operation with
  | install r =>
    refine Safe.bind (install_safe (by rw [hd]; rfl) h) fun _ l' hl => ?_
    exact Safe.done (hpost .nothing) (hnothing l' hl.1)
  | teardown r =>
    refine Safe.bind (teardown_safe hd h.1) fun _ l' hl => ?_
    exact Safe.done (hpost .nothing) (hnothing l' hl)
  | newHandle r =>
    refine Safe.bind (handle_safe (by rw [hd]; rfl) h) fun handle l' hl => ?_
    refine Safe.done (hpost (.handle handle)) ⟨hl.1, fun h hh => ?_⟩
    rw [← Option.some.inj hh]
    exact ⟨by rw [hd]; rfl, hl.2⟩
  | drop h' =>
    refine Safe.bind (drop_safe ⟨h.1, hn h' (by rw [hd]; rfl)⟩) fun _ l' hl => ?_
    exact Safe.done (hpost .nothing) (hnothing l' hl)
  | uninstall h' =>
    refine Safe.bind (uninstall_safe ⟨h.1, hn h' (by rw [hd]; rfl)⟩) fun _ l' hl => ?_
    exact Safe.done (hpost .nothing) (hnothing l' hl)
  | ask h' => exact inquiry_safe h' h.1
  | beginSession =>
    refine Safe.bind (begin_safe (by rw [hd]; rfl) h) fun begun l' hl => ?_
    cases begun with
    | ok x =>
      refine Safe.done (hpost (.session x)) ⟨hl.1, fun h hh => ?_⟩
      rw [← Option.some.inj hh]
      exact ⟨by rw [hd]; rfl, hl.2⟩
    | error f => exact Safe.done (hpost .refusal) ⟨hl, fun _ hh => nomatch hh⟩
  | finishSession x =>
    refine Safe.bind (finish_safe ⟨h.1, hn x.handle (by rw [hd]; rfl)⟩) fun _ l' hl => ?_
    exact Safe.done (hpost .nothing) (hnothing l' hl)

end Operations

end CallbackLocks
