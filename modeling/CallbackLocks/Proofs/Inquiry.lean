import CallbackLocks.Proofs.Ownership
import CallbackLocks.Proofs.Runs.Peaceful

/-!
# A handle that is asked while others are at work

A handle that is asked whether it owns the table compares its number under the lifecycle lock, gives
the lock back, and then looks whether there is a table.  Others get in between.  An answer is right
if at some moment of the call it was so.

* `Workshop.During`  something holds at a moment of a run
* `Workshop.Sound.others_step`   others leave alone what a thread is in the middle of
* `Workshop.Turn`    the moment of a run at which a thread makes its next access
* `Workshop.Sound.exists_turn`   **a call that ends has made it**
* `Workshop.Stands.run`   a handle stands for its call as long as the process runs
* `Workshop.inquire`   a thread asks a handle; `start_ask`
* `Workshop.exists_comparison`   an answer comes from a comparison, and a look at the table after it
* `Workshop.answer_has_its_moment`   **a no was so; a yes was, unless the table had gone before the
                     handle was asked and another came meanwhile**
-/

namespace CallbackLocks

open Ledger Program

theorem Prize.ofAnswer_inj {b b' : Bool} (h : ofAnswer b = ofAnswer b') : b = b' := by
  cases b with
  | true => cases b' with
    | true => rfl
    | false => exact nomatch h
  | false => cases b' with
    | true => exact nomatch h
    | false => rfl

namespace Workshop

variable {s s' : Workshop} {t : Thread} {c : Holding} {d : Deed} {ms : List Move}
  {P Q : Workshop → Prop}

/-! ## moments of a run -/

/-- It holds at some moment of the run, of which its beginning and its end are two. -/
def During (P : Workshop → Prop) (ms : List Move) (s : Workshop) : Prop :=
  ∃ before after m, ms = before ++ after ∧ run before s = .ok m ∧ P m

theorem run_append {before after : List Move} {m : Workshop} (h : run before s = .ok m) :
    run (before ++ after) s = run after m := by
  induction before generalizing s with
  | nil =>
    rw [← Except.ok.inj h]
    rfl
  | cons mv before ih =>
    unfold run at h
    split at h
    · exact nomatch h
    · rename_i s₁ hs₁
      rw [List.cons_append, run_cons hs₁]
      exact ih h

theorem During.at_start (h : P s) : During P ms s := ⟨[], ms, s, rfl, rfl, h⟩

theorem During.later {before after : List Move} {m : Workshop} (hr : run before s = .ok m)
    (h : During P after m) : During P (before ++ after) s := by
  obtain ⟨before', after', m', hsplit, hr', hm'⟩ := h
  refine ⟨before ++ before', after', m', ?_, ?_, hm'⟩
  · rw [hsplit, List.append_assoc]
  · rw [run_append hr, hr']

/-- Of what holds at a moment of a run, what follows from it there holds too. -/
theorem During.imp (h : During P ms s)
    (himp : ∀ {before : List Move} {m : Workshop}, run before s = .ok m → P m → Q m) :
    During Q ms s := by
  obtain ⟨before, after, m, hsplit, hr, hm⟩ := h
  exact ⟨before, after, m, hsplit, hr, himp hr hm⟩

/-! ## the next access of a thread -/

/-- **Others leave alone what a thread is in the middle of**, and do only what it counts on. -/
theorem Sound.others_step (h : Sound False s) {e : Errand} (he : s.errand t = some e) {mv : Move}
    (hs : s.step mv = .ok s') (hne : mv ≠ .go t) :
    s'.errand t = some e ∧ Rely False e.deed t s.ledger s'.ledger := by
  have hother : ∀ {u : Workshop} {t' : Thread} {e' : Option Errand}, t ≠ t' →
      u.errand t = some e → (u.setErrand t' e').errand t = some e :=
    fun htt hu => (if_neg htt).trans hu
  have hstay : Rely False e.deed t s.ledger s.ledger := Rely.refl False e.deed t s.ledger
  have hgo : ∀ {t' : Thread}, mv = .go t' → t ≠ t' := by
    intro t' hmv htt
    rw [htt] at hne
    exact hne hmv
  refine step_preserves_at
    (P := fun s' => s'.errand t = some e ∧ Rely False e.deed t s.ledger s'.ledger) hs ⟨he, hstay⟩
    ?start ?finish ?quit ?perform ?outside ?foreign ?served
  case start =>
    intro t' o op _ hfree _
    refine ⟨hother (fun htt => ?_) he, hstay⟩
    rw [← htt] at hfree
    exact nomatch he.symm.trans (errand_of_isFree hfree)
  case finish => exact fun t' d p hmv _ => ⟨hother (hgo hmv) he, hstay⟩
  case quit => exact fun t' d why hmv _ => ⟨hother (hgo hmv) he, hstay⟩
  case perform =>
    intro t' d a next hmv he' hen
    have htt := hgo hmv
    have hcall : d.call ≠ e.deed.call := fun hcall => htt (h.apart t t' e _ he he' hcall.symm)
    exact ⟨hother htt he, (h.admits he' hen).rely hen htt.symm hcall⟩
  case outside => exact fun o _ => ⟨he, rely_outside o False.elim e.deed t⟩
  case foreign =>
    exact fun k mode index line => ⟨he, Alike.rely ⟨rfl, rfl, rfl, fun _ => rfl, rfl, rfl⟩⟩
  case served =>
    intro place t' mode index o table hd
    exact ⟨he, Alike.rely ⟨rfl, rfl, (dispatchTo_size hd).symm, fun _ => rfl, rfl, rfl⟩⟩

section
variable {a : Access} {next : a.Reply → Program Prize} {p : Prize} {before after : List Move}
  {m : Workshop}

theorem go_of_step (he : s.errand t = some ⟨d, .step a next⟩) (hen : a.isEnabled s.world = true) :
    s.go t = { s with ledger := (s.ledger.perform d t a).2 }.setErrand t
      (some ⟨d, next (a.perform t s.world).1⟩) := by
  simp only [go, he, hen, if_true]

/-- In the moves `ms` from `s` on, `t` makes the access `a` of the call `d` at the moment `m`. -/
structure Turn (s : Workshop) (ms : List Move) (t : Thread) (d : Deed) (a : Access)
    (next : a.Reply → Program Prize) (before after : List Move) (m : Workshop) : Prop where
  moves : ms = before ++ .go t :: after
  run : run before s = .ok m
  rely : Rely False d t s.ledger m.ledger
  enabled : a.isEnabled m.world = true
  errand : m.errand t = some ⟨d, .step a next⟩

theorem Turn.ledger_go (h : Turn s ms t d a next before after m) :
    (m.go t).ledger = (m.ledger.perform d t a).2 := by
  rw [go_of_step h.errand h.enabled]
  rfl

theorem Turn.errand_go (h : Turn s ms t d a next before after m) :
    (m.go t).errand t = some ⟨d, next (a.perform t m.world).1⟩ := by
  rw [go_of_step h.errand h.enabled]
  exact if_pos rfl

theorem Turn.run_go (h : Turn s ms t d a next before after m) :
    Workshop.run (before ++ [.go t]) s = .ok (m.go t) :=
  run_append h.run

theorem Turn.rest (h : Turn s ms t d a next before after m) (hr : Workshop.run ms s = .ok s') :
    Workshop.run after (m.go t) = .ok s' := by
  rw [h.moves, run_append h.run] at hr
  exact hr

theorem Turn.during (h : Turn s ms t d a next before after m) (hm : P m) : During P ms s := by
  rw [h.moves]
  exact During.later h.run (During.at_start hm)

theorem Turn.later (h : Turn s ms t d a next before after m) (hm : During P after (m.go t)) :
    During P ms s := by
  have hmoves : ms = (before ++ [.go t]) ++ after := by
    rw [h.moves, List.append_assoc]
    rfl
  rw [hmoves]
  exact During.later h.run_go hm

/-- **A call that has ended has made its next access.** -/
theorem Sound.exists_turn (h : Sound False s) (he : s.errand t = some ⟨d, .step a next⟩)
    (hr : Workshop.run ms s = .ok s') (hend : s'.errand t = some ⟨d, .done p⟩) :
    ∃ before after m, Turn s ms t d a next before after m := by
  induction ms generalizing s with
  | nil =>
    rw [Except.ok.inj hr, hend] at he
    exact nomatch he
  | cons mv ms ih =>
    unfold Workshop.run at hr
    split at hr
    · exact nomatch hr
    rename_i s₁ hs₁
    by_cases hturn : mv = .go t ∧ a.isEnabled s.world = true
    · obtain ⟨rfl, hen⟩ := hturn
      exact ⟨[], ms, s, rfl, rfl, Rely.refl False d t s.ledger, hen, he⟩
    -- the thread waits, or others move
    have hkept : s₁.errand t = some ⟨d, .step a next⟩ ∧ Rely False d t s.ledger s₁.ledger := by
      by_cases hmv : mv = .go t
      · have hstay : s.go t = s := by
          simp only [Workshop.go, he, if_neg fun hen => hturn ⟨hmv, hen⟩]
        subst hmv
        rw [← Except.ok.inj hs₁, hstay]
        exact ⟨he, Rely.refl False d t s.ledger⟩
      · exact h.others_step he hs₁ hmv
    obtain ⟨before, after, m, hm⟩ := ih (h.step False.elim hs₁) hkept.1 hr
    refine ⟨mv :: before, after, m, ?_, (run_cons hs₁).trans hm.run, hkept.2.trans hm.rely,
      hm.enabled, hm.errand⟩
    rw [hm.moves]
    rfl

end

/-- A call that is over stays as it has ended. -/
theorem Sound.eq_of_done (h : Sound False s) {p : Prize} {q : Program Prize}
    (he : s.errand t = some ⟨d, .done p⟩) (hr : Workshop.run ms s = .ok s')
    (hend : s'.errand t = some ⟨d, q⟩) : q = .done p := by
  induction ms generalizing s with
  | nil =>
    rw [Except.ok.inj hr, hend] at he
    exact (Errand.mk.inj (Option.some.inj he)).2
  | cons mv ms ih =>
    unfold Workshop.run at hr
    split at hr
    · exact nomatch hr
    rename_i s₁ hs₁
    by_cases hmv : mv = .go t
    · -- the thread returns from the call, which is not made again
      have hgo : s.go t = { s with live := s.live ++ p.holdings d }.setErrand t none := by
        simp only [Workshop.go, he]
      have hover : Over d s₁ := by
        subst hmv
        rw [← Except.ok.inj hs₁, hgo]
        refine ⟨(h.busy t _ he).1, fun t' e he' hcall => ?_⟩
        rcases errand_cases he' with ⟨-, heq⟩ | ⟨hne, he'⟩
        · cases heq
        · exact hne (h.apart t' t e _ he' he hcall.symm)
      exact absurd rfl ((hover.run hr).ended t _ hend)
    · exact ih (h.step False.elim hs₁) (h.others_step he hs₁ hmv).1 hr

/-! ## asking a handle -/

/-- The call as which a thread asks the handle. -/
def question (s : Workshop) (c : Holding) : Deed := ⟨s.calls, .ask c.handle⟩

/-- A thread asks a handle whether it owns the table. -/
def inquire (s : Workshop) (t : Thread) (c : Holding) : Workshop :=
  { s with calls := s.calls + 1 }.setErrand t (some ⟨s.question c, c.handle.inquiry⟩)

/-- It is what an order to ask comes to. -/
theorem start_ask {i : Nat} (h : s.live[i]? = some c) : s.start t (.ask i) = s.inquire t c := by
  have hop : s.operation (.ask i) = some (.ask c.handle) := congrArg (Option.map _) h
  rw [start, hop]
  rfl

theorem Sound.inquire (h : Sound False s) (hidle : s.errand t = none) (c : Holding) :
    Sound False (s.inquire t c) :=
  h.assign hidle (List.Sublist.refl _) (inquiry_safe c.handle (h.idle t hidle))

theorem Stands.inquire (h : s.Stands c) (t : Thread) : (s.inquire t c).Stands c where
  past := Nat.lt_succ_of_lt h.past
  returned := h.returned
  records := h.records
  ended := by
    intro t' e he
    rcases errand_cases he with ⟨-, heq⟩ | ⟨-, he⟩
    · rw [← Option.some.inj heq]
      exact Nat.ne_of_lt h.past
    · exact h.ended t' e he

theorem Stands.over (h : s.Stands c) : Over c.deed s := ⟨h.past, h.ended⟩

theorem Stands.gone (h : s.Stands c) (ho : s.ledger.origin ≠ some c.deed) : Gone c.deed s :=
  ⟨h.past, h.ended, ho⟩

/-- The record grows by what other calls make. -/
theorem Over.makers_step (h : Over d s) {mv : Move} (hs : s.step mv = .ok s') :
    ∃ more, s'.ledger.makers = s.ledger.makers ++ more ∧ ∀ m ∈ more, m.call ≠ d.call := by
  rcases record_step hs with ⟨hsame, -⟩ | ⟨t, e, a, he, hl⟩
  · exact ⟨[], by rw [hsame, List.append_nil], fun _ hm => absurd hm List.not_mem_nil⟩
  · obtain ⟨more, hmore, hm⟩ := makers_perform e.deed t a s.ledger
    refine ⟨more, by rw [hl, hmore], fun m hmem => ?_⟩
    rw [hm m hmem]
    exact (h.ended t e he).symm

theorem Over.makers_run (h : Over d s) (hr : Workshop.run ms s = .ok s') :
    ∃ more, s'.ledger.makers = s.ledger.makers ++ more ∧ ∀ m ∈ more, m.call ≠ d.call := by
  refine (run_induction (P := fun _ u => Over d u ∧ ∃ more,
    u.ledger.makers = s.ledger.makers ++ more ∧ ∀ m ∈ more, m.call ≠ d.call) ?_
    ⟨h, [], (List.append_nil _).symm, fun _ hm => absurd hm List.not_mem_nil⟩ hr).2
  rintro mv - u u' ⟨hu, more, hmore, hm⟩ hs
  obtain ⟨more', hmore', hm'⟩ := hu.makers_step hs
  refine ⟨hu.step hs, more ++ more', by rw [hmore', hmore, List.append_assoc], fun m hmem => ?_⟩
  exact (List.mem_append.mp hmem).elim (hm m) (hm' m)

/-- A call that is over has made the newest table only if it had already. -/
theorem Over.newest_of_run (h : Over d s) (hr : Workshop.run ms s = .ok s')
    (hlast : s'.ledger.makers.getLast? = some d) : s.ledger.makers.getLast? = some d := by
  obtain ⟨more, hmore, hothers⟩ := h.makers_run hr
  rcases List.eq_nil_or_concat more with rfl | ⟨more, m, rfl⟩
  · rw [hmore, List.append_nil] at hlast
    exact hlast
  · rw [hmore, List.concat_eq_append, ← List.append_assoc, List.getLast?_concat] at hlast
    have hm := hothers m (List.concat_eq_append ▸ List.mem_concat_self)
    exact absurd (congrArg Deed.call (Option.some.inj hlast)) hm

/-- If the newest table is not installed, none is. -/
theorem Sound.origin_eq_none_of_newest {careful : Prop} (h : Sound careful s)
    (hlast : s.ledger.makers.getLast? = some d) (hnot : s.ledger.origin ≠ some d) :
    s.ledger.origin = none := by
  cases ho : s.ledger.origin with
  | none => rfl
  | some m =>
    rw [ho, (h.ledger.newest m ho).symm.trans hlast] at hnot
    exact absurd rfl hnot

/-- A handle stands for its call as long as the process runs. -/
theorem Stands.run (h : s.Stands c) (hr : Workshop.run ms s = .ok s') : s'.Stands c := by
  have hover := h.over.run hr
  obtain ⟨more, hmore, hm⟩ := h.over.makers_run hr
  refine ⟨hover.past, h.returned, ?_, hover.ended⟩
  rw [hmore]
  exact h.records.append hm

/-! ## an answer and its moment -/

/-- The table that is installed is the one that the call made. -/
def Owned (d : Deed) (s : Workshop) : Prop :=
  s.world.isInstalled = true ∧ s.ledger.origin = some d

theorem Sound.owned_iff {careful : Prop} (h : Sound careful s) :
    s.Owned d ↔ s.ledger.origin = some d := by
  have htable : s.world.isInstalled = s.ledger.origin.isSome := h.ledger.table
  refine ⟨And.right, fun ho => ⟨?_, ho⟩⟩
  rw [htable, ho]
  rfl

/-- **The number of a handle is the count exactly as long as its table is the newest**, installed or
not. -/
theorem Sound.current_iff {careful : Prop} (h : Sound careful s) (hst : s.Stands c)
    (hl : s.world.lifecycle = none) :
    c.handle.generation = some s.world.generation ↔ s.ledger.makers.getLast? = some c.deed := by
  have hlen : s.ledger.makers.length = s.world.generation := h.ledger.settled hl
  rw [← hlen, List.getLast?_eq_getElem?]
  constructor
  · intro hg
    obtain ⟨j, hj, hm⟩ := hst.records.made _ hg
    rw [hj, Nat.add_sub_cancel]
    exact hm
  · intro hlast
    have hlt := (List.getElem?_eq_some_iff.mp hlast).1
    rw [hst.records.sole _ _ hlast rfl]
    congr 1
    omega

/-- **An answer comes from a comparison, and a look at the table after it.** -/
theorem exists_comparison (h : Sound False s) (hidle : s.errand t = none) {g : Nat}
    (hg : c.handle.generation = some g) {b : Bool} (hr : run ms (s.inquire t c) = .ok s')
    (hend : s'.errand t = some ⟨s.question c, .done (.ofAnswer b)⟩) :
    ∃ before after m, ms = before ++ after ∧ run before (s.inquire t c) = .ok m ∧
      m.world.lifecycle = none ∧
      (m.world.generation ≠ g ∧ b = false ∨
        m.world.generation = g ∧ During (fun n => n.world.isInstalled = b) after m) := by
  have h₀ := h.inquire hidle c
  have he₀ : (s.inquire t c).errand t = some ⟨s.question c, .step .takeLifecycle fun _ =>
      .step .readGeneration fun n => .step .freeLifecycle fun _ => Handle.look (n = g)⟩ := by
    rw [← Handle.inquiry_of_some hg]
    exact if_pos rfl
  -- the lifecycle lock is taken, and nothing changes until the number has been read
  obtain ⟨before, after, m, hm⟩ := h₀.exists_turn he₀ hr hend
  have h₁ : Sound False (m.go t) := h₀.run False.elim hm.run_go
  have hr₁ := hm.rest hr
  obtain ⟨_, _, m₂, hm₂⟩ := h₁.exists_turn hm.errand_go hr₁ hend
  have hin : (m.go t).ledger.world.lifecycle = some t := by
    rw [hm.ledger_go]
    rfl
  have hread : (Access.readGeneration.perform t m₂.world).1 = m.world.generation := by
    refine (hm₂.rely.inside hin).2.1.trans ?_
    rw [hm.ledger_go]
    rfl
  have h₂ : Sound False (m₂.go t) := h₁.run False.elim hm₂.run_go
  have hr₂ := hm₂.rest hr₁
  -- the lock is given back
  obtain ⟨_, _, m₃, hm₃⟩ := h₂.exists_turn hm₂.errand_go hr₂ hend
  have h₃ : Sound False (m₃.go t) := h₂.run False.elim hm₃.run_go
  have hr₃ := hm₃.rest hr₂
  have he₃ := hm₃.errand_go
  have hanswer : ∀ {b' : Bool}, Program.done (Prize.ofAnswer b) = .done (.ofAnswer b') → b = b' :=
    fun heq => Prize.ofAnswer_inj (Program.done.inj heq)
  refine ⟨before, .go t :: after, m, hm.moves, hm.run, Option.isNone_iff_eq_none.mp hm.enabled, ?_⟩
  by_cases hsame : (Access.readGeneration.perform t m₂.world).1 = g
  · rw [Handle.look_of_same hsame] at he₃
    obtain ⟨_, _, m₄, hm₄⟩ := h₃.exists_turn he₃ hr₃ hend
    have h₄ : Sound False (m₄.go t) := h₃.run False.elim hm₄.run_go
    have hb := hanswer (h₄.eq_of_done hm₄.errand_go (hm₄.rest hr₃) hend)
    have hlook : m₄.world.isInstalled = b := by
      rw [hb]
      exact m₄.world.isInstalled_eq
    have hstep : run [.go t] m = .ok (m.go t) := rfl
    exact .inr ⟨hread.symm.trans hsame,
      During.later hstep (hm₂.later (hm₃.later (hm₄.during hlook)))⟩
  · rw [Handle.look_of_not_same hsame] at he₃
    exact .inl ⟨fun heq => hsame (hread.trans heq), hanswer (h₃.eq_of_done he₃ hr₃ hend)⟩

/-- **After a no there was a moment of the call at which the handle did not own the table.** -/
theorem Sound.during_of_no (h : Sound False s) (hst : s.Stands c) (hidle : s.errand t = none)
    (hr : Workshop.run ms (s.inquire t c) = .ok s')
    (hend : s'.errand t = some ⟨s.question c, .done (.ofAnswer false)⟩) :
    During (fun m => ¬ m.Owned c.deed) ms (s.inquire t c) := by
  have h₀ := h.inquire hidle c
  cases hg : c.handle.generation with
  | none =>
    -- a handle without a number stands for a call that has made no table
    refine During.at_start fun howned => ?_
    obtain ⟨j, hj⟩ := List.mem_iff_getElem?.mp
      (List.mem_of_getLast? (h₀.ledger.newest _ howned.2))
    exact nomatch hg.symm.trans ((hst.inquire t).records.sole j _ hj rfl)
  | some g =>
    obtain ⟨before, after, m, rfl, hbefore, hfree, hcompare⟩ := exists_comparison h hidle hg hr hend
    rcases hcompare with ⟨hne, -⟩ | ⟨-, hlook⟩
    · have hm : Sound False m := h₀.run False.elim hbefore
      refine During.later hbefore (During.at_start fun howned => hne ?_)
      have hcurrent := (hm.current_iff ((hst.inquire t).run hbefore) hfree).mpr
        (hm.ledger.newest _ howned.2)
      exact Option.some.inj (hcurrent.symm.trans hg)
    · refine During.later hbefore (hlook.imp fun _ hnone howned => ?_)
      exact nomatch hnone.symm.trans howned.1

/-- **If the handle had no table when it was asked, a yes is about a table of another call**, which
has come meanwhile. -/
theorem Sound.during_of_yes (h : Sound False s) (hst : s.Stands c) (hidle : s.errand t = none)
    (hnot : ¬ s.Owned c.deed) (hr : Workshop.run ms (s.inquire t c) = .ok s')
    (hend : s'.errand t = some ⟨s.question c, .done (.ofAnswer true)⟩) :
    s.ledger.origin = none ∧ s.ledger.makers.getLast? = some c.deed ∧
      ∃ d ≠ c.deed, During (fun m => m.Owned d) ms (s.inquire t c) := by
  have h₀ := h.inquire hidle c
  have hst₀ := hst.inquire t
  have hgone : Gone c.deed (s.inquire t c) := hst₀.gone fun ho => hnot (h.owned_iff.mpr ho)
  cases hg : c.handle.generation with
  | none =>
    have he₀ : (s.inquire t c).errand t = some ⟨s.question c, .done (.ofAnswer false)⟩ := by
      rw [← Handle.inquiry_of_none hg]
      exact if_pos rfl
    exact nomatch Program.done.inj (h₀.eq_of_done he₀ hr hend)
  | some g =>
    obtain ⟨before, after, m, rfl, hbefore, hfree, hcompare⟩ := exists_comparison h hidle hg hr hend
    obtain ⟨hsame, hlook⟩ := hcompare.resolve_left fun hno => nomatch hno.2
    have hm : Sound False m := h₀.run False.elim hbefore
    have hlast : m.ledger.makers.getLast? = some c.deed :=
      (hm.current_iff (hst₀.run hbefore) hfree).mp (by rw [hsame, hg])
    -- no other call has made a table since the handle was asked
    have hlast₀ : s.ledger.makers.getLast? = some c.deed := hst₀.over.newest_of_run hbefore hlast
    refine ⟨h.origin_eq_none_of_newest hlast₀ hgone.origin, hlast₀, ?_⟩
    obtain ⟨before', after', n, rfl, hafter, hin⟩ := hlook
    have hn : Sound False n := hm.run False.elim hafter
    obtain ⟨d, hd⟩ := Option.isSome_iff_exists.mp (hn.ledger.table.symm.trans hin)
    have hgone' : Gone c.deed n := (hgone.run hbefore).run hafter
    refine ⟨d, fun heq => hgone'.origin (heq ▸ hd), During.later hbefore ?_⟩
    exact During.later hafter (During.at_start (hn.owned_iff.mpr hd))

/-- **An answer has its moment.**  A thread asks a handle whether it owns the table while any others
make and remove tables.  There was a moment of the call at which it was as the answer says, if and
only if the answer is no or the handle owned the table when it was asked.  Else the table of the
handle had gone before the handle was asked, and none had come after it, until another call made one
between the comparison and the look at the table. -/
theorem answer_has_its_moment {edition : Edition} {reported : Nat → Nat} {hostLocks : Int32}
    {past : List Move} (hpast : run past (initial edition reported hostLocks) = .ok s)
    (hc : c ∈ s.live) (hfree : s.isFree t = true) {b : Bool}
    (hr : run ms (s.inquire t c) = .ok s')
    (hend : s'.errand t = some ⟨s.question c, .done (.ofAnswer b)⟩) :
    (During (fun m => m.Owned c.deed ↔ b = true) ms (s.inquire t c) ↔
      (b = true → s.Owned c.deed)) ∧
    (b = true → ¬ s.Owned c.deed →
      s.ledger.origin = none ∧ s.ledger.makers.getLast? = some c.deed ∧
        ∃ d ≠ c.deed, During (fun m => m.Owned d) ms (s.inquire t c)) := by
  have h : Sound False s := (sound_initial False edition reported hostLocks).run False.elim hpast
  have hst : s.Stands c := h.live c hc
  have hidle : s.errand t = none := errand_of_isFree hfree
  have hst₀ := hst.inquire t
  refine ⟨⟨fun hmoment hb => ?_, fun howned => ?_⟩, fun hb hnot => ?_⟩
  · -- a table that is gone does not come back
    by_contra hnot
    have hgone : Gone c.deed (s.inquire t c) := hst₀.gone fun ho => hnot (h.owned_iff.mpr ho)
    obtain ⟨before, after, m, -, hbefore, hm⟩ := hmoment
    exact (hgone.run hbefore).origin (hm.mpr hb).2
  · cases b with
    | true => exact During.at_start (iff_of_true (howned rfl) rfl)
    | false =>
      refine (h.during_of_no hst hidle hr hend).imp fun _ hno => ?_
      exact iff_of_false hno Bool.false_ne_true
  · subst hb
    exact h.during_of_yes hst hidle hnot hr hend

/-- A worker compares the number of a handle, others do this, and it looks at the table. -/
def overtaking (others : List Move) : List Move :=
  List.replicate 3 (.go (.worker 0)) ++ others ++ [.go (.worker 0)]

theorem answer_has_its_moment_removed : ∃ s s' c,
    run (Move.inARow .main (.newHandle (.recorder 0)) 12) (initial .legacy (fun _ => 2) 3) = .ok s ∧
    c ∈ s.live ∧ s.isFree (.worker 0) = true ∧
    run (overtaking (Move.inARow .main (.teardown (.recorder 0)) 8)) (s.inquire (.worker 0) c) =
      .ok s' ∧
    s'.errand (.worker 0) = some ⟨s.question c, .done (.ofAnswer false)⟩ ∧
    During (fun m => m.Owned c.deed ↔ false = true)
      (overtaking (Move.inARow .main (.teardown (.recorder 0)) 8)) (s.inquire (.worker 0) c) := by
  obtain ⟨s, s', c, hpast, hlive, hfree, hr, hend⟩ : ∃ s s' c,
      run (Move.inARow .main (.newHandle (.recorder 0)) 12) (initial .legacy (fun _ => 2) 3) =
        .ok s ∧
      s.live = [c] ∧ s.isFree (.worker 0) = true ∧
      run (overtaking (Move.inARow .main (.teardown (.recorder 0)) 8)) (s.inquire (.worker 0) c) =
        .ok s' ∧
      s'.errand (.worker 0) = some ⟨s.question c, .done (.ofAnswer false)⟩ :=
    ⟨_, _, ⟨⟨0, .newHandle (.recorder 0)⟩, ⟨.recorder 0, some 1⟩, false⟩, rfl, by cbv,
      by cbv, rfl, by cbv⟩
  have hc : c ∈ s.live := hlive ▸ List.mem_cons_self
  have h := answer_has_its_moment hpast hc hfree hr hend
  exact ⟨s, s', c, hpast, hc, hfree, hr, hend, h.1.mpr fun hb => absurd hb Bool.false_ne_true⟩

/-- A handle gets a table, and the table is removed by name. -/
def orphaned : List Move := List.flatten
  [Move.inARow .main (.newHandle (.recorder 0)) 12, Move.inARow .main (.teardown (.recorder 0)) 8]

/-- A yes without a moment: the table of the handle has gone before it is asked, and another comes
between the comparison and the look at the table. -/
theorem yes_without_a_moment : ∃ s s' c,
    run orphaned (initial .legacy (fun _ => 2) 3) = .ok s ∧ c ∈ s.live ∧
    s.isFree (.worker 0) = true ∧
    run (overtaking (Move.inARow .main (.newHandle (.recorder 1)) 12))
      (s.inquire (.worker 0) c) = .ok s' ∧
    s'.errand (.worker 0) = some ⟨s.question c, .done (.ofAnswer true)⟩ ∧
    ¬ During (fun m => m.Owned c.deed) (overtaking (Move.inARow .main (.newHandle (.recorder 1)) 12))
      (s.inquire (.worker 0) c) := by
  obtain ⟨s, s', c, hpast, hlive, hfree, hr, hend, hnone⟩ : ∃ s s' c,
      run orphaned (initial .legacy (fun _ => 2) 3) = .ok s ∧ s.live = [c] ∧
      s.isFree (.worker 0) = true ∧
      run (overtaking (Move.inARow .main (.newHandle (.recorder 1)) 12))
        (s.inquire (.worker 0) c) = .ok s' ∧
      s'.errand (.worker 0) = some ⟨s.question c, .done (.ofAnswer true)⟩ ∧
      s.ledger.origin = none :=
    ⟨_, _, ⟨⟨0, .newHandle (.recorder 0)⟩, ⟨.recorder 0, some 1⟩, false⟩,
      rfl, by cbv, by cbv, rfl, by cbv, by cbv⟩
  have hc : c ∈ s.live := hlive ▸ List.mem_cons_self
  have h : Sound False s := (sound_initial False .legacy (fun _ => 2) 3).run False.elim hpast
  have hst := (h.live c hc).inquire (.worker 0)
  have hgone : Gone c.deed (s.inquire (.worker 0) c) :=
    hst.gone fun ho => Option.some_ne_none _ (ho.symm.trans hnone)
  refine ⟨s, s', c, hpast, hc, hfree, hr, hend, fun hmoment => ?_⟩
  obtain ⟨before, after, m, -, hbefore, hm⟩ := hmoment
  exact (hgone.run hbefore).origin hm.2

end Workshop

end CallbackLocks
