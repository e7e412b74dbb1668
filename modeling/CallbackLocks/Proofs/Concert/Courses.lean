import CallbackLocks.Proofs.Concert.Sessions

/-!
# The courses that sessions take

What a call about sessions does, access by access, whatever others do in between.  About the table
it does what a call of install does, or a handle that is given up.

* `ofSession`        of some accesses, those about sessions
* `Session.starting`, `Session.cleaning`   how the host library is brought up and cleaned up
* `Session.Course`   what a call that begins a session does, and what comes of it
* `Session.begin_ends`   **such a call takes one of these courses**
* `Session.EndCourse`, `finish_ends`   what a call that ends a session does, **without fail**
* `Session.Course.ok_iff`   a session is begun if the claim, the host library and the seed allow
-/

namespace CallbackLocks

def ofSession (acts : List Act) : List Act := acts.filter fun act => act.access.isOfSession

theorem ofSession_append (acts acts' : List Act) :
    ofSession (acts ++ acts') = ofSession acts ++ ofSession acts' :=
  List.filter_append ..

theorem ofSession_cons {act : Act} (h : act.access.isOfSession = true) (acts : List Act) :
    ofSession (act :: acts) = act :: ofSession acts :=
  List.filter_cons_of_pos h

theorem mem_ofSession {acts : List Act} {act : Act} (h : act.access.isOfSession = true) :
    act ∈ ofSession acts ↔ act ∈ acts := by
  rw [ofSession, List.mem_filter]
  exact and_iff_left h

/-- A watch that no access about sessions may come, and that a call does not give up. -/
def Watch.plain : Watch Unit where
  allows := fun _ a => a.isOfSession = false
  leads := fun _ _ _ _ => True
  quits := fun _ => False

theorem Watch.ignores_plain (a : Access) (h : a.isOfSession = false) : plain.Ignores () a :=
  ⟨h, fun _ _ _ => rfl⟩

namespace Session

open Program

variable {α : Type} {e : Edition} {who : Thread} {acts : List Act}

/-- what is done to start the host library, if that goes well -/
def starting : Edition → List Act
  | .modern => [⟨.initHost, ()⟩]
  | .legacy => [⟨.startHost, (1 : Int32)⟩, ⟨.loadErrorStrings, ()⟩]

def cleaning : Edition → List Act
  | .modern => []
  | .legacy => [⟨.cleanAlgorithms, ()⟩, ⟨.cleanExtraData, ()⟩, ⟨.freeErrorStrings, ()⟩]

/-- What a call by `who` that begins a session does, and what comes of it.  A call that has the
claim starts the host library, calls install for it and looks for a seed, in this order. -/
inductive Course (e : Edition) (who : Thread) : List Act → Except Failure Session → Prop
  /-- another session has the claim -/
  | taken : Course e who [⟨.claim, false⟩] (.error .alreadyInitialized)
  /-- the host library does not start -/
  | refused (he : e = .legacy) (code : Int32) (errors : List ErrorCode) (hcode : code ≠ 1) :
      Course e who
        [⟨.claim, true⟩, ⟨.startHost, code⟩, ⟨.drainErrors, errors⟩, ⟨.unclaim, ()⟩]
        (.error (.refused errors))
  /-- there is no seed, and all is undone -/
  | unseeded {installs drops : List Act} {handle : Handle}
      (hinstall : (Handle.install .host).Ends who installs (.ok handle))
      (hdrop : handle.drop.Ends who drops (.ok ())) :
      Course e who (⟨.claim, true⟩ :: (starting e ++ (installs ++ ⟨.readSeeded, false⟩ ::
        (cleaning e ++ (drops ++ [⟨.unclaim, ()⟩]))))) (.error .noEntropy)
  | begun {installs : List Act} {handle : Handle}
      (hinstall : (Handle.install .host).Ends who installs (.ok handle)) :
      Course e who (⟨.claim, true⟩ :: (starting e ++ (installs ++
        [⟨.readSeeded, true⟩, ⟨.log .seeded, ()⟩, ⟨.log .begun, ()⟩]))) (.ok ⟨handle⟩)

/-- What a call by `who` that ends the session does: it cleans up, has the handle give up what it
installed, and gives the claim back. -/
def EndCourse (e : Edition) (who : Thread) (x : Session) (acts : List Act) : Prop :=
  ∃ releases handle, x.handle.release.Ends who releases (.ok handle) ∧
    acts = cleaning e ++ (releases ++ [⟨.unclaim, ()⟩, ⟨.log .ended, ()⟩])

/-! ## the parts of a call -/

theorem ofSession_starting (e : Edition) : ofSession (starting e) = starting e := by
  cases e <;> rfl

theorem ofSession_cleaning (e : Edition) : ofSession (cleaning e) = cleaning e := by
  cases e <;> rfl

/-- A program about tables does nothing about sessions, and does not give up. -/
theorem ofSession_of_along {p : Program α} {post : Unit → α → Prop} {y : Except Abandoned α}
    (hp : p.Along .plain post ()) (he : p.Ends who acts y) :
    ofSession acts = [] ∧ ∃ x, y = .ok x ∧ post () x := by
  obtain ⟨hacts, hend⟩ := hp.of_ends (fun _ _ _ => ⟨(), trivial⟩) he
  refine ⟨List.filter_eq_nil_iff.mpr fun act ha hs => ?_, ?_⟩
  · obtain ⟨_, hact⟩ := hacts act ha
    exact Bool.false_ne_true (hact.symm.trans hs)
  · rcases hend with ⟨x, _, hx, hpost⟩ | ⟨_, _, -, hq⟩
    · exact ⟨x, hx, hpost⟩
    · exact hq.elim

theorem install_ends {y : Except Abandoned Handle} (h : (Handle.install .host).Ends who acts y) :
    ofSession acts = [] ∧ ∃ handle, y = .ok handle := by
  have hinstall := Handle.install_along (Watch.ignores_install Watch.ignores_plain)
    (.inl (rfl : Registry.host = .host))
  obtain ⟨hacts, handle, hy, -⟩ := ofSession_of_along hinstall h
  exact ⟨hacts, handle, hy⟩

theorem drop_ends {handle : Handle} {y : Except Abandoned Unit} (h : handle.drop.Ends who acts y) :
    ofSession acts = [] ∧ y = .ok () := by
  have hdrop := handle.drop_along (Watch.ignores_removal Watch.ignores_plain)
  obtain ⟨hacts, _, hy, -⟩ := ofSession_of_along hdrop h
  exact ⟨hacts, hy⟩

theorem release_ends {handle : Handle} {y : Except Abandoned Handle}
    (h : handle.release.Ends who acts y) :
    ofSession acts = [] ∧ ∃ r, y = .ok ⟨r, none⟩ := by
  have hrelease := handle.release_along (Watch.ignores_removal Watch.ignores_plain)
  obtain ⟨hacts, ⟨r, _⟩, hy, -, rfl⟩ := ofSession_of_along hrelease h
  exact ⟨hacts, r, hy⟩

theorem start_ends {y : Except Abandoned (Except Failure Unit)}
    (h : (start e).Ends who acts y) :
    acts = starting e ∧ y = .ok (.ok ()) ∨ e = .legacy ∧ ∃ code errors, code ≠ (1 : Int32) ∧
      acts = [⟨.startHost, code⟩, ⟨.drainErrors, errors⟩] ∧
      y = .ok (.error (.refused errors)) := by
  cases e with
  | modern =>
    obtain ⟨_, _, rfl, rfl, rfl⟩ := h
    exact .inl ⟨rfl, rfl⟩
  | legacy =>
    obtain ⟨w, rest, rfl, h⟩ := h
    generalize (Access.startHost.perform who w).1 = code at h
    replace h : (if code = (1 : Int32) then _ else _ : Program _).Ends who rest y := h
    split at h
    · rename_i hcode
      obtain ⟨_, _, rfl, rfl, rfl⟩ := h
      rw [hcode]
      exact .inl ⟨rfl, rfl⟩
    · rename_i hcode
      obtain ⟨_, _, rfl, rfl, rfl⟩ := h
      exact .inr ⟨rfl, _, _, hcode, rfl, rfl⟩

theorem cleanUp_ends {y : Except Abandoned Unit} (h : (cleanUp e).Ends who acts y) :
    acts = cleaning e ∧ y = .ok () := by
  cases e with
  | modern => exact h
  | legacy =>
    obtain ⟨_, _, rfl, _, _, rfl, _, _, rfl, rfl, rfl⟩ := h
    exact ⟨rfl, rfl⟩

theorem seed_ends {y : Except Abandoned (Except Failure Unit)} (h : seed.Ends who acts y) :
    acts = [⟨.readSeeded, true⟩, ⟨.log .seeded, ()⟩] ∧ y = .ok (.ok ()) ∨
      acts = [⟨.readSeeded, false⟩] ∧ y = .ok (.error .noEntropy) := by
  obtain ⟨w, rest, rfl, h⟩ := h
  generalize (Access.readSeeded.perform who w).1 = seeded at h
  cases seeded with
  | true =>
    obtain ⟨_, _, rfl, rfl, rfl⟩ := h
    exact .inl ⟨rfl, rfl⟩
  | false =>
    obtain ⟨rfl, rfl⟩ := h
    exact .inr ⟨rfl, rfl⟩

/-- What is undone for want of a seed: the host library is cleaned up, and the handle dropped. -/
theorem undo_ends {handle : Handle} {x : Except Failure Handle}
    {y : Except Abandoned (Except Failure Handle)}
    (h : ((cleanUp e).bind fun _ => handle.drop.bind fun _ => done x).Ends who acts y) :
    y = .ok x ∧ ∃ drops, handle.drop.Ends who drops (.ok ()) ∧ acts = cleaning e ++ drops := by
  rcases h.bind with ⟨_, hclean, -⟩ | ⟨_, acts₁, acts₂, rfl, hclean, h⟩
  · exact nomatch (cleanUp_ends hclean).2
  rw [(cleanUp_ends hclean).1]
  rcases h.bind with ⟨_, hdrop, -⟩ | ⟨_, drops, acts₃, rfl, hdrop, rfl, rfl⟩
  · exact nomatch (drop_ends hdrop).2
  · exact ⟨rfl, drops, hdrop, by rw [List.append_nil]⟩

theorem bringUp_ends {y : Except Abandoned (Except Failure Handle)}
    (h : (bringUp e).Ends who acts y) :
    (e = .legacy ∧ ∃ code errors, code ≠ (1 : Int32) ∧ y = .ok (.error (.refused errors)) ∧
      acts = [⟨.startHost, code⟩, ⟨.drainErrors, errors⟩]) ∨
    ∃ installs handle, (Handle.install .host).Ends who installs (.ok handle) ∧
      ((y = .ok (.ok handle) ∧
          acts = starting e ++ (installs ++ [⟨.readSeeded, true⟩, ⟨.log .seeded, ()⟩])) ∨
        (y = .ok (.error .noEntropy) ∧ ∃ drops, handle.drop.Ends who drops (.ok ()) ∧
          acts = starting e ++ (installs ++ ⟨.readSeeded, false⟩ :: (cleaning e ++ drops)))) := by
  rcases h.bind with ⟨_, hstart, -⟩ | ⟨started, acts₁, acts₂, rfl, hstart, h⟩
  · rcases start_ends hstart with ⟨-, hy⟩ | ⟨-, _, _, -, -, hy⟩ <;> exact nomatch hy
  rcases start_ends hstart with ⟨rfl, hy⟩ | ⟨he, code, errors, hcode, rfl, hy⟩
  · -- the host library is up
    obtain rfl := Except.ok.inj hy
    rcases h.bind with ⟨_, hinstall, -⟩ | ⟨handle, installs, acts₄, rfl, hinstall, h⟩
    · obtain ⟨-, _, hy⟩ := install_ends hinstall
      exact nomatch hy
    rcases h.bind with ⟨_, hseed, -⟩ | ⟨seeded, acts₅, acts₆, rfl, hseed, h⟩
    · rcases seed_ends hseed with ⟨-, hy⟩ | ⟨-, hy⟩ <;> exact nomatch hy
    refine .inr ⟨installs, handle, hinstall, ?_⟩
    rcases seed_ends hseed with ⟨rfl, hy⟩ | ⟨rfl, hy⟩
    · obtain rfl := Except.ok.inj hy
      obtain ⟨rfl, rfl⟩ := h
      exact .inl ⟨rfl, rfl⟩
    · obtain rfl := Except.ok.inj hy
      obtain ⟨hy, drops, hdrop, rfl⟩ := undo_ends h
      exact .inr ⟨hy, drops, hdrop, rfl⟩
  · obtain rfl := Except.ok.inj hy
    obtain ⟨rfl, rfl⟩ := h
    exact .inl ⟨he, code, errors, hcode, rfl, rfl⟩

/-! ## whole calls -/

/-- **A call that begins a session takes one of these courses.** -/
theorem begin_ends {y : Except Abandoned (Except Failure Session)}
    (h : (begin e).Ends who acts y) : ∃ x, y = .ok x ∧ Course e who acts x := by
  obtain ⟨w, rest, rfl, h⟩ := h
  generalize (Access.claim.perform who w).1 = granted at h ⊢
  cases granted with
  | false =>
    obtain ⟨rfl, rfl⟩ := h
    exact ⟨_, rfl, .taken⟩
  | true =>
    replace h : ((bringUp e).bind _).Ends who rest y := h
    rcases h.bind with ⟨_, hup, -⟩ | ⟨up, acts₁, acts₂, rfl, hup, h⟩
    · rcases bringUp_ends hup with ⟨-, _, _, -, hy, -⟩ | ⟨_, _, -, ⟨hy, -⟩ | ⟨hy, -⟩⟩ <;>
        exact nomatch hy
    rcases bringUp_ends hup with ⟨he, code, errors, hcode, hy, rfl⟩ |
      ⟨installs, handle, hinstall, ⟨hy, rfl⟩ | ⟨hy, drops, hdrop, rfl⟩⟩
    · obtain rfl := Except.ok.inj hy
      obtain ⟨_, _, rfl, rfl, rfl⟩ := h
      exact ⟨_, rfl, .refused he code errors hcode⟩
    · obtain rfl := Except.ok.inj hy
      obtain ⟨_, _, rfl, rfl, rfl⟩ := h
      refine ⟨_, rfl, ?_⟩
      rw [List.append_assoc, List.append_assoc]
      exact .begun hinstall
    · obtain rfl := Except.ok.inj hy
      obtain ⟨_, _, rfl, rfl, rfl⟩ := h
      refine ⟨_, rfl, ?_⟩
      rw [List.append_assoc, List.append_assoc, List.cons_append, List.append_assoc]
      exact .unseeded hinstall hdrop

/-- **A session ends without fail.** -/
theorem finish_ends {x : Session} {y : Except Abandoned Unit} (h : (x.finish e).Ends who acts y) :
    y = .ok () ∧ EndCourse e who x acts := by
  rcases h.bind with ⟨_, hclean, -⟩ | ⟨_, acts₁, acts₂, rfl, hclean, h⟩
  · exact nomatch (cleanUp_ends hclean).2
  rw [(cleanUp_ends hclean).1]
  rcases h.bind with ⟨_, hrelease, -⟩ | ⟨handle, releases, acts₄, rfl, hrelease, h⟩
  · obtain ⟨-, _, hy⟩ := release_ends hrelease
    exact nomatch hy
  obtain ⟨-, r, hy⟩ := release_ends hrelease
  obtain rfl := Except.ok.inj hy
  obtain ⟨_, _, rfl, _, _, rfl, rfl, rfl⟩ := h
  exact ⟨rfl, releases, _, hrelease, rfl⟩

/-! ## what a course tells -/

section
variable {installs drops : List Act} {handle : Handle}

theorem ofSession_unseeded (hinstall : (Handle.install .host).Ends who installs (.ok handle))
    (hdrop : handle.drop.Ends who drops (.ok ())) :
    ofSession (starting e ++ (installs ++ ⟨.readSeeded, false⟩ ::
      (cleaning e ++ (drops ++ [⟨.unclaim, ()⟩])))) =
    starting e ++ ⟨.readSeeded, false⟩ :: (cleaning e ++ [⟨.unclaim, ()⟩]) := by
  simp only [ofSession_append, ofSession_starting, (install_ends hinstall).1, List.nil_append]
  rw [ofSession_cons rfl]
  simp only [ofSession_append, ofSession_cleaning, (drop_ends hdrop).1, List.nil_append]
  rfl

theorem ofSession_begun (hinstall : (Handle.install .host).Ends who installs (.ok handle)) :
    ofSession (starting e ++ (installs ++
      [⟨.readSeeded, true⟩, ⟨.log .seeded, ()⟩, ⟨.log .begun, ()⟩])) =
    starting e ++ [⟨.readSeeded, true⟩, ⟨.log .seeded, ()⟩, ⟨.log .begun, ()⟩] := by
  simp only [ofSession_append, ofSession_starting, (install_ends hinstall).1, List.nil_append]
  rfl

end

/-- A session is begun if the claim is granted, the host library starts, if it answers, and the
random number generator has a seed. -/
theorem Course.ok_iff {x : Except Failure Session} (h : Course e who acts x) :
    (∃ z, x = .ok z) ↔ ⟨.claim, true⟩ ∈ acts ∧
      (e = .modern ∨ ⟨.startHost, (1 : Int32)⟩ ∈ acts) ∧ ⟨.readSeeded, true⟩ ∈ acts := by
  have hclaim : ⟨.claim, true⟩ ∈ ofSession acts ↔ ⟨.claim, true⟩ ∈ acts := mem_ofSession rfl
  have hstart : ⟨.startHost, (1 : Int32)⟩ ∈ ofSession acts ↔ ⟨.startHost, (1 : Int32)⟩ ∈ acts :=
    mem_ofSession rfl
  have hseed : ⟨.readSeeded, true⟩ ∈ ofSession acts ↔ ⟨.readSeeded, true⟩ ∈ acts :=
    mem_ofSession rfl
  rw [← hclaim, ← hstart, ← hseed]
  cases h with
  | taken => simp [ofSession]
  | refused he code errors hcode => simp [ofSession, he]
  | unseeded hinstall hdrop =>
    rw [ofSession_cons rfl, ofSession_unseeded hinstall hdrop]
    cases e <;> simp [starting, cleaning]
  | begun hinstall =>
    rw [ofSession_cons rfl, ofSession_begun hinstall]
    cases e <;> simp [starting]

theorem Course.claim_once {first : Act} {rest : List Act} {x : Except Failure Session}
    (h : Course e who (first :: rest) x) : ∀ act ∈ rest, act.access ≠ .claim := by
  suffices hrest : ∀ act ∈ ofSession rest, act.access ≠ .claim from fun act hact heq =>
    hrest act ((mem_ofSession (by rw [heq]; rfl)).mpr hact) heq
  cases h with
  | taken => simp [ofSession]
  | refused => simp [ofSession, Access.isOfSession]
  | unseeded hinstall hdrop =>
    rw [ofSession_unseeded hinstall hdrop]
    cases e <;> simp [starting, cleaning]
  | begun hinstall =>
    rw [ofSession_begun hinstall]
    cases e <;> simp [starting]

/-- A call asks for the claim first, and does no more if another session has it. -/
theorem Course.exists_claim {x : Except Failure Session} (h : Course e who acts x) :
    ∃ granted rest, acts = ⟨.claim, granted⟩ :: rest ∧ (granted = false → rest = []) ∧
      (x = .error .alreadyInitialized ↔ granted = false) := by
  cases h with
  | taken => exact ⟨false, [], rfl, fun _ => rfl, by simp⟩
  | refused => exact ⟨true, _, rfl, (fun hf => nomatch hf), by simp⟩
  | unseeded => exact ⟨true, _, rfl, (fun hf => nomatch hf), by simp⟩
  | begun => exact ⟨true, _, rfl, (fun hf => nomatch hf), by simp⟩

end Session

/-- what is returned for a session that was to be begun -/
def SessionResult.ofBegin : Except Failure Session → SessionResult
  | .ok x => .session x
  | .error f => .failure f

namespace SessionRequest

variable {e : Edition} {who : Thread} {acts : List Act} {y : Except Abandoned SessionResult}

/-- What a call that begins a session has done, and what it returns, is one of the courses. -/
theorem begin_ends (h : (beginSession.program e).Ends who acts y) :
    ∃ x, y = .ok (.ofBegin x) ∧ Session.Course e who acts x := by
  rcases h.bind with ⟨_, hbegin, -⟩ | ⟨begun, acts₁, acts₂, rfl, hbegin, h⟩
  · obtain ⟨_, hy, -⟩ := Session.begin_ends hbegin
    exact nomatch hy
  obtain ⟨x, hy, hcourse⟩ := Session.begin_ends hbegin
  obtain rfl := Except.ok.inj hy
  cases begun with
  | ok x =>
    obtain ⟨rfl, rfl⟩ := h
    rw [List.append_nil]
    exact ⟨_, rfl, hcourse⟩
  | error f =>
    obtain ⟨rfl, rfl⟩ := h
    rw [List.append_nil]
    exact ⟨_, rfl, hcourse⟩

theorem finish_ends {x : Session} (h : ((finishSession x).program e).Ends who acts y) :
    y = .ok (.table .nothing) ∧ Session.EndCourse e who x acts := by
  rcases h.bind with ⟨_, hfinish, -⟩ | ⟨_, acts₁, acts₂, rfl, hfinish, rfl, rfl⟩
  · exact nomatch (Session.finish_ends hfinish).1
  · rw [List.append_nil]
    exact ⟨rfl, (Session.finish_ends hfinish).2⟩

end SessionRequest

end CallbackLocks
