import CallbackLocks.Proofs.FailedSessions

/-!
# Errors that are read

A thread reads its errors one at a time, until it reads a zero.  It reads one when there is no error
left, but an error may be zero as well; so what is told apart by its first zero is a whole queue.

* `ErrorSource`      where threads read their errors, with what a reader relies on
* `ErrorSource.next`, `collect`, `drain`   one error, the loop, and all errors
* `ErrorSource.drain_eq_takeWhile`, `queue_drain`   **what is read, and what is left**
* `ErrorCode.exists_split`   only a zero is lost in between
* `World.errorSource`   the queues of a process; `drain_errorSource`: reading them is one access
* `Session.queues_run_begin`   of a call for a session only the start of the host library concerns
                     queues
* `errors_read_to_first_zero`   **what a refusal tells is what was read, and nothing else is read**
-/

namespace CallbackLocks

open Program

/-- Where threads read their errors.  There is no bound on how many they have yet to read. -/
structure ErrorSource (σ : Type) where
  /-- what a thread has yet to read, the oldest first -/
  queue : σ → Thread → List ErrorCode
  /-- the oldest error of a thread, taken out; zero if there is none -/
  get : Thread → σ → ErrorCode × σ
  get_code : ∀ t s, (get t s).1 = (queue s t).headD ⟨0⟩
  queue_get : ∀ t s t', queue (get t s).2 t' = if t' = t then (queue s t).tail else queue s t'

/-- the code does not read as the end -/
def ErrorCode.isError (c : ErrorCode) : Bool := !c.isZero

theorem ErrorCode.eq_zero_of_not_isError {c : ErrorCode} (h : ¬ c.isError = true) : c = ⟨0⟩ := by
  rwa [isError, Bool.not_eq_true', Bool.not_eq_false, isZero_iff] at h

namespace ErrorSource

variable {σ : Type} (src : ErrorSource σ) (t : Thread) {s : σ} {c : ErrorCode}
  {cs : List ErrorCode}

/-- the oldest error; zero is none -/
def next (s : σ) : Option ErrorCode × σ :=
  (if (src.get t s).1.isZero then none else some (src.get t s).1, (src.get t s).2)

theorem next_of_nil (h : src.queue s t = []) : (src.next t s).1 = none := by
  have hcode : (src.get t s).1 = ⟨0⟩ := by rw [src.get_code, h, List.headD_nil]
  exact if_pos (by rw [hcode, ErrorCode.isZero_iff])

theorem next_of_cons (h : src.queue s t = c :: cs) :
    (src.next t s).1 = if c.isError then some c else none := by
  have hcode : (src.get t s).1 = c := by rw [src.get_code, h, List.headD_cons]
  rw [next, hcode, ErrorCode.isError]
  cases c.isZero <;> rfl

theorem queue_next (s : σ) (t' : Thread) : src.queue (src.next t s).2 t' =
    if t' = t then (src.queue s t).tail else src.queue s t' := src.queue_get t s t'

/-- An error that is read is one less. -/
theorem length_queue_next (h : (src.next t s).1 = some c) :
    (src.queue (src.next t s).2 t).length < (src.queue s t).length := by
  cases hq : src.queue s t with
  | nil =>
    rw [src.next_of_nil t hq] at h
    exact nomatch h
  | cons d cs =>
    rw [queue_next, if_pos rfl, hq]
    exact Nat.lt_succ_self cs.length

/-- Errors are read, and put behind those that have been, until there is none. -/
def collect (s : σ) (read : List ErrorCode) : List ErrorCode × σ :=
  match _h : (src.next t s).1 with
  | none => (read, (src.next t s).2)
  | some c => collect (src.next t s).2 (read ++ [c])
termination_by (src.queue s t).length
decreasing_by exact src.length_queue_next t _h

/-- all errors that a thread reads -/
def drain (s : σ) : List ErrorCode × σ := src.collect t s []

theorem collect_of_none (h : (src.next t s).1 = none) (read : List ErrorCode) :
    src.collect t s read = (read, (src.next t s).2) := by
  rw [collect]
  split
  · rfl
  · rename_i c hc
    exact nomatch h.symm.trans hc

theorem collect_of_some (h : (src.next t s).1 = some c) (read : List ErrorCode) :
    src.collect t s read = src.collect t (src.next t s).2 (read ++ [c]) := by
  rw [collect]
  split
  · rename_i hc
    exact nomatch h.symm.trans hc
  · rename_i d hd
    rw [Option.some.inj (h.symm.trans hd)]

/-- The loop reads what is there before the first zero, and takes that zero out. -/
theorem collect_spec (hq : src.queue s t = cs) (read : List ErrorCode) :
    (src.collect t s read).1 = read ++ cs.takeWhile ErrorCode.isError ∧
    ∀ t', src.queue (src.collect t s read).2 t' =
      if t' = t then (cs.dropWhile ErrorCode.isError).tail else src.queue s t' := by
  induction cs generalizing s read with
  | nil =>
    rw [src.collect_of_none t (src.next_of_nil t hq)]
    refine ⟨(List.append_nil read).symm, fun t' => ?_⟩
    rw [queue_next, hq]
    rfl
  | cons c cs ih =>
    have hnext := src.next_of_cons t hq
    by_cases hc : c.isError = true
    · have hrest : src.queue (src.next t s).2 t = cs := by
        rw [queue_next, if_pos rfl, hq]
        rfl
      rw [if_pos hc] at hnext
      obtain ⟨hread, hleft⟩ := ih hrest (read ++ [c])
      rw [src.collect_of_some t hnext, List.takeWhile_cons_of_pos hc,
        List.dropWhile_cons_of_pos hc]
      refine ⟨hread.trans (List.append_assoc read [c] _), fun t' => ?_⟩
      rw [hleft, queue_next]
      by_cases ht : t' = t
      · rw [if_pos ht, if_pos ht]
      · rw [if_neg ht, if_neg ht, if_neg ht]
    · rw [if_neg hc] at hnext
      rw [src.collect_of_none t hnext, List.takeWhile_cons_of_neg hc,
        List.dropWhile_cons_of_neg hc, List.append_nil]
      refine ⟨rfl, fun t' => ?_⟩
      rw [queue_next, hq]

/-- **What is read is what is there before the first zero.** -/
theorem drain_eq_takeWhile (s : σ) :
    (src.drain t s).1 = (src.queue s t).takeWhile ErrorCode.isError :=
  (src.collect_spec t rfl []).1

/-- **What is left is what is there behind the first zero.**  Others have all that they had. -/
theorem queue_drain (s : σ) (t' : Thread) : src.queue (src.drain t s).2 t' =
    if t' = t then ((src.queue s t).dropWhile ErrorCode.isError).tail else src.queue s t' :=
  (src.collect_spec t rfl []).2 t'

end ErrorSource

/-- Between what is read of a queue and what is left of it there is a zero, if the queue is not read
to its end. -/
theorem ErrorCode.exists_split (cs : List ErrorCode) : ∃ removed : List ErrorCode,
    (removed = [⟨0⟩] ∨ removed = [] ∧ (cs.dropWhile isError).tail = []) ∧
    cs.takeWhile isError ++ removed ++ (cs.dropWhile isError).tail = cs := by
  induction cs with
  | nil => exact ⟨[], .inr ⟨rfl, rfl⟩, rfl⟩
  | cons c cs ih =>
    by_cases hc : c.isError = true
    · obtain ⟨removed, hremoved, hcs⟩ := ih
      rw [List.takeWhile_cons_of_pos hc, List.dropWhile_cons_of_pos hc]
      exact ⟨removed, hremoved, congrArg (c :: ·) hcs⟩
    · rw [List.takeWhile_cons_of_neg hc, List.dropWhile_cons_of_neg hc,
        eq_zero_of_not_isError hc]
      exact ⟨[⟨0⟩], .inl rfl, rfl⟩

/-! ## the queues of a process -/

theorem ErrorQueue.drainList_eq (cs : List ErrorCode) : drainList cs
    = (cs.takeWhile ErrorCode.isError, (cs.dropWhile ErrorCode.isError).tail) := by
  induction cs with
  | nil => rfl
  | cons c cs ih =>
    rw [drainList, ih]
    by_cases hc : c.isError = true
    · rw [List.takeWhile_cons_of_pos hc, List.dropWhile_cons_of_pos hc, if_neg]
      intro hzero
      rw [ErrorCode.isError, hzero] at hc
      exact Bool.false_ne_true hc
    · rw [List.takeWhile_cons_of_neg hc, List.dropWhile_cons_of_neg hc,
        ErrorCode.eq_zero_of_not_isError hc]
      rfl

namespace World

/-- the queues of a process, as its threads read them -/
def errorSource : ErrorSource World where
  queue w t := (w.queues t).entries
  get t w := ((w.queues t).entries.headD ⟨0⟩, w.setQueue t (w.queues t).pop.2)
  get_code _ _ := rfl
  queue_get t w t' := by
    have htail : (w.queues t).pop.2.entries = (w.queues t).entries.tail := by
      cases w.queues t with
      | mk entries _ => cases entries <;> rfl
    rw [queues_setQueue]
    by_cases h : t' = t
    · rw [if_pos h, if_pos h, htail]
    · rw [if_neg h, if_neg h]

/-- Reading errors one at a time comes to what reading them at once does. -/
theorem drain_errorSource (w : World) (t : Thread) :
    (errorSource.drain t w).1 = (Access.drainErrors.perform t w).1 ∧
    (errorSource.drain t w).2.queues = (Access.drainErrors.perform t w).2.queues := by
  have hlist := ErrorQueue.drainList_eq (w.queues t).entries
  refine ⟨?_, funext fun t' => ErrorQueue.ext ?_⟩
  · exact (errorSource.drain_eq_takeWhile t w).trans (congrArg Prod.fst hlist).symm
  · refine (errorSource.queue_drain t w t').trans ?_
    show _ = ((w.setQueue t (w.queues t).drain.2).queues t').entries
    rw [queues_setQueue]
    by_cases h : t' = t
    · rw [if_pos h, if_pos h]
      exact (congrArg Prod.snd hlist).symm
    · rw [if_neg h, if_neg h]
      rfl

/-- the state after the host library has left its errors for a thread that starts it -/
def asked (w : World) (who : Thread) : World :=
  w.setQueue who ((w.queues who).pushAll w.startErrors)

end World

/-! ## what concerns queues -/

def Access.isOnQueues : Access → Bool
  | startHost | drainErrors => true
  | _ => false

theorem Access.queues_perform {a : Access} (h : a.isOnQueues = false) (who : Thread) (w : World) :
    (a.perform who w).2.queues = w.queues := by
  cases a with
  | startHost | drainErrors => exact nomatch h
  | setLocking r f =>
    show (w.register r f).queues = _
    unfold World.register
    split <;> rfl
  | setId r f =>
    show (w.registerId r f).queues = _
    unfold World.registerId
    split <;> rfl
  | _ => rfl

/-- A watch that no access on queues may come. -/
def Watch.quiet : Watch Unit where
  allows := fun _ a => a.isOnQueues = false
  leads := fun _ _ _ _ => True
  quits := fun _ => True

/-- The program does nothing about queues. -/
def Program.IsQuiet {α : Type} (p : Program α) : Prop := p.Along .quiet (fun _ _ => True) ()

namespace Program

variable {α β : Type} {p : Program α} {f : α → Program β}

theorem isQuiet_done (x : α) : (done x).IsQuiet := trivial

theorem isQuiet_step {a : Access} {next : a.Reply → Program α} (ha : a.isOnQueues = false)
    (h : ∀ who w, (next (a.perform who w).1).IsQuiet) : (step a next).IsQuiet :=
  ⟨ha, fun who w _ _ => h who w⟩

theorem IsQuiet.bind (hp : p.IsQuiet) (hf : ∀ x, (f x).IsQuiet) : (p.bind f).IsQuiet :=
  Along.bind hp fun _ x _ => hf x

theorem Along.isQuiet {post : Unit → α → Prop} (h : p.Along .quiet post ()) : p.IsQuiet :=
  h.mono fun _ _ _ => trivial

theorem IsQuiet.queues_run (h : p.IsQuiet) (who : Thread) (w : World) :
    (p.run who w).2.queues = w.queues := by
  induction p generalizing w with
  | done | abandon => rfl
  | step a next ih =>
    rw [run_step, ih _ (h.2 who w () trivial), Access.queues_perform h.1]

/-- Of two programs in a row only the first does something about queues. -/
theorem queues_run_bind (hf : ∀ x, (f x).IsQuiet) (who : Thread) (w : World) :
    ((p.bind f).run who w).2.queues = (p.run who w).2.queues := by
  rw [run_bind]
  cases p.run who w with
  | mk y v =>
    cases y with
    | ok x => exact (hf x).queues_run who v
    | error e => rfl

end Program

theorem Watch.ignores_quiet {a : Access} (h : a.isOnQueues = false) : quiet.Ignores () a :=
  ⟨h, fun _ _ _ => rfl⟩

theorem Handle.install_isQuiet (r : Registry) : (install r).IsQuiet := by
  refine Along.isQuiet (install_along (fun a ha => Watch.ignores_quiet ?_) (.inr trivial))
  cases a with
  | startHost | drainErrors => exact nomatch ha
  | _ => rfl

theorem Handle.drop_isQuiet (h : Handle) : h.drop.IsQuiet := by
  refine Along.isQuiet (drop_along (fun a ha => Watch.ignores_quiet ?_) h)
  cases a with
  | startHost | drainErrors => exact nomatch ha
  | _ => rfl

namespace Session

variable {w : World} {who : Thread}

theorem cleanUp_isQuiet (e : Edition) : (cleanUp e).IsQuiet := by
  cases e with
  | modern => exact isQuiet_done ()
  | legacy =>
    refine isQuiet_step rfl fun _ _ => ?_
    refine isQuiet_step rfl fun _ _ => ?_
    exact isQuiet_step rfl fun _ _ => isQuiet_done ()

theorem seed_isQuiet : seed.IsQuiet := by
  refine isQuiet_step rfl fun _ w => ?_
  show (if w.seeded then _ else _ : Program (Except Failure Unit)).IsQuiet
  split
  · exact isQuiet_step rfl fun _ _ => isQuiet_done _
  · exact isQuiet_done _

/-- **Of a call for a session only the start of the host library concerns queues.** -/
theorem queues_run_begin (hfirst : w.claimed = false) (e : Edition) (who : Thread) :
    ((begin e).run who w).2.queues = ((start e).run who (w.setClaimed true)).2.queues := by
  obtain ⟨settle, hbegin, hsettle⟩ :
      ∃ settle : Except Failure Handle → Program (Except Failure Session),
      (begin e).run who w = ((bringUp e).bind settle).run who (w.setClaimed true) ∧
        ∀ x, (settle x).IsQuiet := by
    refine ⟨_, run_step_of (a := .claim) (congrArg not hfirst), fun x => ?_⟩
    cases x with
    | ok handle => exact isQuiet_step rfl fun _ _ => isQuiet_done _
    | error f => exact isQuiet_step rfl fun _ _ => isQuiet_done _
  rw [hbegin, queues_run_bind hsettle]
  refine queues_run_bind (fun x => ?_) who (w.setClaimed true)
  cases x with
  | error f => exact isQuiet_done _
  | ok _ =>
    refine (Handle.install_isQuiet .host).bind fun handle => seed_isQuiet.bind fun y => ?_
    cases y with
    | ok _ => exact isQuiet_done _
    | error f =>
      exact (cleanUp_isQuiet e).bind fun _ => handle.drop_isQuiet.bind fun _ => isQuiet_done _

/-- A host library that refuses to start leaves its errors, and they are read. -/
theorem run_start_drains (hcode : w.startCode ≠ 1) (who : Thread) : ∃ v,
    (start .legacy).run who w =
      (.ok (.error (.refused (Access.drainErrors.perform who (w.asked who)).1)), v) ∧
    v.queues = (Access.drainErrors.perform who (w.asked who)).2.queues := by
  refine ⟨(Access.drainErrors.perform who (Access.startHost.perform who w).2).2, ?_, rfl⟩
  refine (run_step _ _ _ _).trans ?_
  show (if w.startCode = 1 then _ else _ : Program _).run who _ = _
  rw [if_neg hcode]
  rfl

/-- A call finds the claim taken, or the host library refuses to start, or it starts. -/
theorem run_begin_drains (w : World) (who : Thread) :
    (w.claimed = true → (begin .legacy).run who w = (.ok (.error .alreadyInitialized), w)) ∧
    (w.claimed = false → w.startCode ≠ 1 → ∃ v, (begin .legacy).run who w
        = (.ok (.error (.refused (World.errorSource.drain who (w.asked who)).1)), v) ∧
      v.queues = (World.errorSource.drain who (w.asked who)).2.queues) ∧
    (w.claimed = false → w.startCode = 1 → ∃ x v, (begin .legacy).run who w = (.ok x, v) ∧
      (x = .error .noEntropy ∨ ∃ y, x = .ok y) ∧ v.queues = (w.asked who).queues) := by
  refine ⟨fun hc => run_begin_of_claimed hc .legacy who, fun hfirst hcode => ?_,
    fun hfirst hcode => ?_⟩
  · obtain ⟨v, hstart, hqueues⟩ := run_start_drains (w := w.setClaimed true) hcode who
    obtain ⟨hread, hleft⟩ := (w.asked who).drain_errorSource who
    rw [hread, hleft]
    exact ⟨_, run_begin_of_error hfirst (run_bringUp_of_error hstart), hqueues⟩
  · have hqueues := queues_run_begin hfirst .legacy who
    rw [run_start (w := w.setClaimed true) fun _ => hcode] at hqueues
    obtain ⟨h, u, hfree, hinstall⟩ := install_ways who w .legacy
    obtain ⟨hfails, hgoes, -⟩ := run_ways hfirst (fun _ => hcode) hfree hinstall who
    cases hs : w.seeded with
    | false =>
      rw [World.setSeeded, ← hs] at hfails
      rw [hfails] at hqueues
      exact ⟨_, _, hfails, .inl rfl, hqueues⟩
    | true =>
      rw [World.setSeeded, ← hs] at hgoes
      rw [hgoes] at hqueues
      exact ⟨_, _, hgoes, .inr ⟨_, rfl⟩, hqueues⟩

end Session

/-- **Errors are read up to the first zero, and none is lost.**  Whatever the queue of a thread, the
loop ends; it has read what is there before the first zero, the oldest first, and leaves what is
there behind it.  If nothing is left there may have been no zero; otherwise the zero is all that is
lost, and others have all that they had.  A call for a session that a legacy host library refuses
tells what the thread reads so, of what it had and what the host library has added, and leaves what
is left so.  With any other outcome nothing is read. -/
theorem errors_read_to_first_zero :
    (∀ {σ : Type} (src : ErrorSource σ) (t : Thread) (s : σ),
      (src.drain t s).1 = (src.queue s t).takeWhile ErrorCode.isError ∧
      src.queue (src.drain t s).2 t = ((src.queue s t).dropWhile ErrorCode.isError).tail ∧
      (∃ removed, (removed = [⟨0⟩] ∨ removed = [] ∧ src.queue (src.drain t s).2 t = []) ∧
        (src.drain t s).1 ++ removed ++ src.queue (src.drain t s).2 t = src.queue s t) ∧
      ∀ t', t' ≠ t → src.queue (src.drain t s).2 t' = src.queue s t') ∧
    ∀ (w : World) (who : Thread),
      (w.claimed = true →
        (Session.begin .legacy).run who w = (.ok (.error .alreadyInitialized), w)) ∧
      (w.claimed = false → w.startCode ≠ 1 → ∃ v, (Session.begin .legacy).run who w
          = (.ok (.error (.refused (World.errorSource.drain who (w.asked who)).1)), v) ∧
        v.queues = (World.errorSource.drain who (w.asked who)).2.queues) ∧
      (w.claimed = false → w.startCode = 1 → ∃ x v, (Session.begin .legacy).run who w = (.ok x, v) ∧
        (x = .error .noEntropy ∨ ∃ y, x = .ok y) ∧ v.queues = (w.asked who).queues) := by
  refine ⟨fun src t s => ?_, fun w who => Session.run_begin_drains w who⟩
  have hread := src.drain_eq_takeWhile t s
  have hleft : src.queue (src.drain t s).2 t
      = ((src.queue s t).dropWhile ErrorCode.isError).tail :=
    (src.queue_drain t s t).trans (if_pos rfl)
  obtain ⟨removed, hremoved, hall⟩ := ErrorCode.exists_split (src.queue s t)
  rw [← hread, ← hleft] at hall
  rw [← hleft] at hremoved
  exact ⟨hread, hleft, ⟨removed, hremoved, hall⟩,
    fun t' ht => (src.queue_drain t s t').trans (if_neg ht)⟩

/-- Two errors are there already, and the host library adds three, one of which is zero. -/
theorem errors_read_to_first_zero_refused : ∃ v, (Session.begin .legacy).run .main
      { World.initial .legacy (fun _ => 0) 0 with
        queues := fun _ => ErrorQueue.empty.pushAll [⟨1⟩, ⟨2⟩], startErrors := [⟨3⟩, ⟨0⟩, ⟨4⟩],
        startCode := 0 } = (.ok (.error (.refused [⟨1⟩, ⟨2⟩, ⟨3⟩])), v) ∧
    (v.queues .main).entries = [⟨4⟩] ∧ (v.queues (.worker 0)).entries = [⟨1⟩, ⟨2⟩] := by
  let w : World := { World.initial .legacy (fun _ => 0) 0 with
    queues := fun _ => ErrorQueue.empty.pushAll [⟨1⟩, ⟨2⟩], startErrors := [⟨3⟩, ⟨0⟩, ⟨4⟩],
    startCode := 0 }
  obtain ⟨v, hrun, hqueues⟩ := (errors_read_to_first_zero.2 w .main).2.1 rfl (by decide)
  obtain ⟨hread, hleft, -, hothers⟩ :=
    errors_read_to_first_zero.1 World.errorSource .main (w.asked .main)
  rw [hread] at hrun
  refine ⟨v, hrun, ?_, ?_⟩
  · rw [hqueues]
    exact hleft
  · rw [hqueues]
    exact hothers (.worker 0) (by decide)

end CallbackLocks
