import CallbackLocks.Scenario.Run

/-!
# The last registration counts

A context keeps one callback and one argument, and each is what it was last set to.  Which way a
registration came, what else has been done meanwhile, and to which other contexts, makes no
difference.

* `Command.callback?`, `argument?`   what a command sets a context to
* `Command.onServerNames`   what a command does to contexts and clients
* `lastOf`           the last of what commands tell
* `Stage.serverNames_perform`   **commands do that to them, and nothing else**
* `Stage.after`      the stage after commands, one after another
* `Stage.context_after`   **what is in a context after any commands**
* `Stage.Runs`       the callback that a client's first message makes a context run
* `Stage.last_registration_runs`   **the callback that runs is the last one, with the last argument**
-/

namespace CallbackLocks

/-! ## what commands do to contexts -/

namespace Command

/-- The command registers a callback for context `i`, in one of the ways that there are. -/
def callback? (i : Nat) : Command → Option (Option Nat)
  | setServerName context _ f => if context = i then some f else none
  | _ => none

/-- The command sets the argument of context `i`. -/
def argument? (i : Nat) : Command → Option UInt64
  | setServerNameArgument context x => if context = i then some x else none
  | _ => none

/-- What the command does to the contexts and clients of the process. -/
def onServerNames (c : Command) (n : ServerNames) : ServerNames :=
  match c with
  | newContext => n.newContext
  | setServerName context entry f =>
    if context < n.contexts.size then (entry.register n context f).2 else n
  | setServerNameArgument context x =>
    if context < n.contexts.size then (n.setArgument context x).2 else n
  | newClient context => if context < n.contexts.size then n.newClient else n
  | setHost client bytes => if client < n.clients.size then n.setHost client bytes else n
  | _ => n

end Command

/-- what a context is after a command -/
def Context.after (k : Context) (i : Nat) (c : Command) : Context where
  callback := (c.callback? i).getD k.callback
  argument := (c.argument? i).getD k.argument

/-- A control on a context that is there shows in that one, and in no other. -/
theorem ServerNames.getElem?_contexts_control {n : ServerNames} {i : Nat} {k : Context}
    (hk : n.contexts[i]? = some k) (j : Nat) (x : Control) :
    (if j < n.contexts.size then n.control j x else n).contexts[i]?
      = some (if j = i then k.apply x else k) := by
  have hi : i < n.contexts.size := (Array.getElem?_eq_some_iff.mp hk).1
  by_cases hj : j = i
  · rw [if_pos (hj ▸ hi), getElem?_control, if_pos hj, hk, if_pos hj]
    rfl
  · rw [if_neg hj]
    split
    · rw [getElem?_control, if_neg hj, hk]
    · exact hk

theorem Command.getElem?_onServerNames (c : Command) {n : ServerNames} {i : Nat} {k : Context}
    (hk : n.contexts[i]? = some k) :
    (c.onServerNames n).contexts[i]? = some (k.after i c) := by
  have hi : i < n.contexts.size := (Array.getElem?_eq_some_iff.mp hk).1
  cases c with
  | newContext =>
    show (n.contexts.push .fresh)[i]? = _
    rw [Array.getElem?_push_lt hi, ← Array.getElem?_eq_getElem hi, hk]
    rfl
  | setServerName context entry f =>
    have hafter : k.after i (.setServerName context entry f)
        = if context = i then k.apply (.callback f) else k := by
      show Context.mk ((if context = i then some f else none).getD k.callback) k.argument = _
      split <;> rfl
    show (if context < n.contexts.size then (entry.register n context f).2 else n).contexts[i]? = _
    rw [Entry.register_eq, ServerNames.getElem?_contexts_control hk, hafter]
  | setServerNameArgument context x =>
    have hafter : k.after i (.setServerNameArgument context x)
        = if context = i then k.apply (.argument x) else k := by
      show Context.mk k.callback ((if context = i then some x else none).getD k.argument) = _
      split <;> rfl
    show (if context < n.contexts.size then (n.setArgument context x).2 else n).contexts[i]? = _
    rw [ServerNames.setArgument_eq, ServerNames.getElem?_contexts_control hk, hafter]
  | newClient context =>
    show (if _ then n.newClient else n).contexts[i]? = _
    split <;> exact hk
  | setHost client bytes =>
    show (if _ then n.setHost client bytes else n).contexts[i]? = _
    split <;> exact hk
  | _ => exact hk

/-- The last of what commands tell. -/
def lastOf {α : Type} (tell : Command → Option α) (cs : List Command) : Option α :=
  (cs.filterMap tell).getLast?

theorem lastOf_cons {α : Type} (tell : Command → Option α) (c : Command) (cs : List Command)
    (x : α) : (lastOf tell (c :: cs)).getD x = (lastOf tell cs).getD ((tell c).getD x) := by
  unfold lastOf
  cases hc : tell c with
  | none => rw [List.filterMap_cons_none hc]; rfl
  | some y => rw [List.filterMap_cons_some hc, List.getLast?_cons]; rfl

/-- What is in a context after commands is the last that they have set it to. -/
theorem Context.foldl_after (k : Context) (i : Nat) (cs : List Command) :
    cs.foldl (fun k c => k.after i c) k =
      ⟨(lastOf (Command.callback? i) cs).getD k.callback,
        (lastOf (Command.argument? i) cs).getD k.argument⟩ := by
  induction cs generalizing k with
  | nil => rfl
  | cons c cs ih =>
    rw [List.foldl_cons, ih, lastOf_cons, lastOf_cons]
    rfl

namespace Stage

variable {s s' : Stage} {a : Answer}

theorem serverNames_act {α : Type} (s : Stage) (p : Program α) {f : α → Stage → Answer × Stage}
    (hf : ∀ x t, (f x t).2.serverNames = t.serverNames) :
    (s.act p f).2.serverNames = s.serverNames := by
  unfold act
  split
  · exact hf _ _
  · rfl

theorem serverNames_does (s : Stage) (p : Program Unit) :
    (s.does p).2.serverNames = s.serverNames := s.serverNames_act p fun _ _ => rfl

theorem serverNames_doesAt (s : Stage) (r : Registry) (p : Registry → Program Unit) :
    (s.doesAt r p).2.serverNames = s.serverNames := by
  unfold doesAt
  split
  · exact s.serverNames_does _
  · rfl

theorem serverNames_onModern (s : Stage) {f : Stage → Answer × Stage}
    (hf : ∀ t : Stage, (f t).2.serverNames = t.serverNames) :
    (s.onModern f).2.serverNames = s.serverNames := by
  unfold onModern
  split
  · exact hf s
  · rfl

theorem serverNames_endHandle (s : Stage) (name : String) (way : Handle → Program Unit) :
    (s.endHandle name way).2.serverNames = s.serverNames := by
  unfold endHandle
  split
  · rfl
  · exact serverNames_does _ _

theorem serverNames_compare {α : Type} [DecidableEq α] (s : Stage) (kept : Named α) (x y : String) :
    (s.compare kept x y).2.serverNames = s.serverNames := by
  unfold compare
  split <;> rfl

theorem serverNames_reach (s : Stage) (via : Via) :
    (s.reach via).2.serverNames = s.serverNames := by
  cases via with
  | direct => rfl
  | registry r => cases r <;> rfl

theorem serverNames_call {worker : Nat} {via : Via} {mode index line : Int32}
    (h : s.call worker via mode index line = .ok (a, s')) : s'.serverNames = s.serverNames := by
  have hr := s.serverNames_reach via
  unfold call at h
  split at h
  · cases h
    rfl
  · generalize s.reach via = found at h hr
    obtain ⟨_ | f, t⟩ := found
    · cases h
      exact hr
    · replace h : (if _ then _ else _ : Except Fault (Answer × Stage)) = _ := h
      split at h
      · cases h
        exact hr
      · cases f with
        | foreign k =>
          cases h
          exact hr
        | own =>
          replace h : (dispatch _ _ _ _).bind _ = _ := h
          cases hd : dispatch t.world.table (.worker worker) mode index with
          | error e =>
            rw [hd] at h
            exact nomatch h
          | ok x =>
            rw [hd] at h
            cases h
            exact hr

theorem serverNames_contend {via : Via} {threads rounds : Nat} {index : Int32}
    (h : s.contend via threads rounds index = .ok (a, s')) : s'.serverNames = s.serverNames := by
  have hr := s.serverNames_reach via
  unfold contend at h
  split at h
  · cases h
    rfl
  · generalize s.reach via = found at h hr
    obtain ⟨_ | _ | k, t⟩ := found
    · cases h
      exact hr
    · replace h : (Contest.finish _ _).bind _ = _ := h
      cases hc : (Contest.start t.world.table threads rounds).finish (.forWriting index) with
      | error e =>
        rw [hc] at h
        exact nomatch h
      | ok c =>
        rw [hc] at h
        cases h
        exact hr
    · cases h
      exact hr

theorem serverNames_threadId (s : Stage) (worker : Nat) (via : Via) :
    (s.threadId worker via).2.serverNames = s.serverNames := by
  unfold threadId number
  grind

theorem serverNames_race (s : Stage) (kind : RaceKind) (r : Registry) (threads : Nat) :
    (s.race kind r threads).2.serverNames = s.serverNames := by
  unfold race
  split
  · rfl
  · exact serverNames_act _ _ fun _ _ => rfl

theorem serverNames_newHandle (s : Stage) (r : Registry) (name : String) :
    (s.newHandle r name).2.serverNames = s.serverNames := by
  unfold newHandle
  split
  · exact serverNames_act _ _ fun _ _ => rfl
  · rfl

theorem serverNames_showHandle (s : Stage) (name : String) :
    (s.showHandle name).2.serverNames = s.serverNames := by
  unfold showHandle
  split
  · rfl
  · exact serverNames_act _ _ fun _ _ => rfl

theorem serverNames_beginSession (s : Stage) (name : String) :
    (s.beginSession name).2.serverNames = s.serverNames := by
  refine serverNames_act _ _ fun x t => ?_
  cases x with
  | ok x => rfl
  | error f => rfl

theorem serverNames_showSession (s : Stage) (name : String) :
    (s.showSession name).2.serverNames = s.serverNames := by
  unfold showSession
  split
  · rfl
  · exact serverNames_act _ _ fun _ _ => rfl

theorem serverNames_finishSession (s : Stage) (name : String) :
    (s.finishSession name).2.serverNames = s.serverNames := by
  unfold finishSession
  split
  · rfl
  · exact serverNames_does _ _

theorem serverNames_controlContext (s : Stage) (i : Nat) (f : ServerNames → Int64 × ServerNames) :
    (s.controlContext i f).2.serverNames =
      if i < s.serverNames.contexts.size then (f s.serverNames).2 else s.serverNames := by
  unfold controlContext
  split <;> rfl

theorem serverNames_newClient (s : Stage) (context : Nat) :
    (s.newClient context).2.serverNames =
      if context < s.serverNames.contexts.size then s.serverNames.newClient else s.serverNames := by
  unfold newClient
  split <;> rfl

theorem serverNames_setHost (s : Stage) (client : Nat) (bytes : List UInt8) :
    (s.setHost client bytes).2.serverNames =
      if client < s.serverNames.clients.size then s.serverNames.setHost client bytes
      else s.serverNames := by
  unfold setHost
  split
  · dsimp only
    split <;> rfl
  · rfl

theorem serverNames_hello (s : Stage) (i : Nat) (host : Option (List UInt8)) :
    (s.hello i host).2.serverNames = s.serverNames := by
  unfold hello
  dsimp only
  split
  · rfl
  · split <;> rfl

/-- **Commands do to contexts and clients what is written down for them**, and nothing else. -/
theorem serverNames_perform {c : Command} (h : s.perform c = .ok (a, s')) :
    s'.serverNames = c.onServerNames s.serverNames := by
  have hof : ∀ {x : Answer × Stage} {n : ServerNames}, Except.ok x = s.perform c →
      x.2.serverNames = n → s'.serverNames = n := by
    intro x n hx hn
    rw [h] at hx
    rw [← hn, Except.ok.inj hx]
  cases c with
  | call => exact serverNames_call h
  | contend => exact serverNames_contend h
  | install | teardown | setLocking | setId => exact hof rfl (s.serverNames_doesAt _ _)
  | exportedInstall | exportedTeardown =>
    exact hof rfl (s.serverNames_onModern fun t => t.serverNames_does _)
  | exportedIsInstalled =>
    exact hof rfl (s.serverNames_onModern fun t => t.serverNames_act _ fun _ _ => rfl)
  | newHandle r name => exact hof rfl (s.serverNames_newHandle r name)
  | showHandle name => exact hof rfl (s.serverNames_showHandle name)
  | dropHandle | uninstallHandle => exact hof rfl (s.serverNames_endHandle _ _)
  | report recorder locks =>
    refine hof rfl ?_
    unfold Stage.report
    split <;> rfl
  | reportHost locks =>
    refine hof rfl ?_
    unfold Stage.reportHost
    split <;> rfl
  | query r =>
    refine hof rfl ?_
    unfold Stage.query
    split
    · exact s.serverNames_act _ fun _ _ => rfl
    · rfl
  | threadId worker via => exact hof rfl (s.serverNames_threadId worker via)
  | race kind r threads => exact hof rfl (s.serverNames_race kind r threads)
  | setStart code errors =>
    refine hof rfl ?_
    unfold Stage.setStart
    split <;> rfl
  | beginSession name => exact hof rfl (s.serverNames_beginSession name)
  | showSession name => exact hof rfl (s.serverNames_showSession name)
  | finishSession name => exact hof rfl (s.serverNames_finishSession name)
  | pop worker name =>
    refine hof rfl ?_
    unfold Stage.pop
    dsimp only
    split <;> rfl
  | showError name =>
    refine hof rfl ?_
    unfold Stage.showError
    split <;> rfl
  | showStack name =>
    refine hof rfl ?_
    unfold Stage.showStack
    split <;> rfl
  | compareErrors x y => exact hof rfl (s.serverNames_compare _ x y)
  | compareStacks x y => exact hof rfl (s.serverNames_compare _ x y)
  | showRefused name =>
    refine hof rfl ?_
    unfold Stage.showRefused
    split <;> rfl
  | recordServerName recorder context f =>
    refine hof rfl ?_
    unfold Stage.recordServerName
    split <;> rfl
  | setServerName context entry f => exact hof rfl (s.serverNames_controlContext context _)
  | setServerNameArgument context x => exact hof rfl (s.serverNames_controlContext context _)
  | newClient context => exact hof rfl (s.serverNames_newClient context)
  | setHost client bytes => exact hof rfl (s.serverNames_setHost client bytes)
  | showHost client =>
    refine hof rfl ?_
    unfold Stage.showHost
    split <;> rfl
  | hello context host => exact hof rfl (s.serverNames_hello context host)
  | _ => exact hof rfl rfl

/-! ## the last registration -/

/-- The stage after commands, one after another, unless a fault ends the process. -/
def after (s : Stage) : List Command → Except Fault Stage
  | [] => .ok s
  | c :: cs => match s.unseen.perform c with
    | .error f => .error f
    | .ok (_, t) => t.after cs

/-- **What is in a context after any commands.** -/
theorem context_after {i : Nat} {k : Context} (hk : s.serverNames.contexts[i]? = some k)
    {cs : List Command} (hrun : s.after cs = .ok s') :
    s'.serverNames.contexts[i]? = some (cs.foldl (fun k c => k.after i c) k) := by
  induction cs generalizing s k with
  | nil =>
    cases hrun
    exact hk
  | cons c cs ih =>
    unfold after at hrun
    split at hrun
    · exact nomatch hrun
    · rename_i a t hperform
      have hstep : t.serverNames.contexts[i]? = some (k.after i c) := by
        rw [serverNames_perform hperform]
        exact c.getElem?_onServerNames hk
      exact ih hstep hrun

/-- A client's first message makes context `i` run that callback with that argument, and no other.
A client that has no random numbers sends no message. -/
def Runs (s : Stage) (i : Nat) (callback : Option Nat) (argument : UInt64) : Prop :=
  ∀ host, ∃ t, s.unseen.perform (.hello i host) = .ok (.done, t) ∧
    t.world.trace = if s.world.seeded then
      (callback.map fun f => Event.call (.serverName f (host.bind hostName?) argument)).toList
    else []

theorem runs_of_context {i : Nat} {k : Context} (hk : s.serverNames.contexts[i]? = some k) :
    s.Runs i k.callback k.argument := by
  intro host
  let heard := s.unseen.onErrors fun _ => .empty
  have hcontext : s.unseen.serverNames.contexts[i]? = some k := hk
  have hseeded : heard.world.seeded = s.world.seeded := rfl
  show ∃ t, Except.ok (s.unseen.hello i host) = _ ∧ _
  unfold hello
  rw [hcontext]
  dsimp only
  rw [hseeded, ServerNames.hello]
  cases s.world.seeded with
  | false => exact ⟨heard, rfl, rfl⟩
  | true =>
    cases k.callback with
    | none => exact ⟨heard, rfl, rfl⟩
    | some f => exact ⟨_, rfl, rfl⟩

/-- **The last registration counts.**  After any commands that do not end the process, a client's
first message makes a context run the callback that was last registered for it, whichever way that
was, with the argument that it was last given; none if the last registration took the callback back.
If there was no registration it runs what was there before, and a new context has no callback and a
zero for its argument. -/
theorem last_registration_runs (s : Stage) :
    (∀ {s' : Stage} {cs : List Command} {i : Nat} {k : Context},
      s.serverNames.contexts[i]? = some k → s.after cs = .ok s' →
      s'.Runs i ((lastOf (Command.callback? i) cs).getD k.callback)
        ((lastOf (Command.argument? i) cs).getD k.argument)) ∧
    ∀ {s' : Stage} {cs : List Command}, s.after (.newContext :: cs) = .ok s' →
      s'.Runs s.serverNames.contexts.size
        ((lastOf (Command.callback? s.serverNames.contexts.size) cs).getD none)
        ((lastOf (Command.argument? s.serverNames.contexts.size) cs).getD 0) := by
  have hall : ∀ {s s' : Stage} {cs : List Command} {i : Nat} {k : Context},
      s.serverNames.contexts[i]? = some k → s.after cs = .ok s' →
      s'.Runs i ((lastOf (Command.callback? i) cs).getD k.callback)
        ((lastOf (Command.argument? i) cs).getD k.argument) := by
    intro s s' cs i k hk hrun
    have hk' := context_after hk hrun
    rw [Context.foldl_after] at hk'
    exact runs_of_context hk'
  refine ⟨hall, fun {s' cs} hrun => ?_⟩
  exact hall (s := s.unseen.newContext.2) (k := .fresh) Array.getElem?_push_size hrun

/-- A second context is set up next to a first one, which has a callback and an argument, in all the
ways that there are.  Meanwhile a recorder is given callbacks, a table comes and goes, and a session
begins. -/
def setup : List Command :=
  [.newContext, .recordServerName 0 0 (some 0), .install .host true,
    .setServerName 1 .exported (some 0), .setServerName 0 .withRegistry (some 1),
    .setServerNameArgument 1 8, .beginSession "s", .setServerName 1 .plain none,
    .teardown .host true, .recordServerName 0 1 none]

theorem last_registration_runs_setup : ∃ m s a b : Stage,
    (initial .modern [⟨1, 1⟩] 0).after
      [.newContext, .setServerName 0 .plain (some 0), .setServerNameArgument 0 7] = .ok m ∧
    m.after setup = .ok s ∧
    s.unseen.perform (.hello 0 (some [119])) = .ok (.done, a) ∧
    a.world.trace = [.call (.serverName 1 (some [119]) 7)] ∧
    s.unseen.perform (.hello 1 none) = .ok (.done, b) ∧ b.world.trace = [] := by
  obtain ⟨m, s, hfirst, hrun, hseeded, hcontexts⟩ : ∃ m s : Stage,
      (initial .modern [⟨1, 1⟩] 0).after
        [.newContext, .setServerName 0 .plain (some 0), .setServerNameArgument 0 7] = .ok m ∧
      m.after setup = .ok s ∧ s.world.seeded = true ∧
      m.serverNames.contexts = #[⟨some 0, 7⟩] := ⟨_, _, rfl, rfl, rfl, rfl⟩
  have hzero : m.serverNames.contexts[0]? = some ⟨some 0, 7⟩ := by rw [hcontexts]; rfl
  obtain ⟨a, ha, hseen⟩ := (last_registration_runs m).1 hzero hrun (some [119])
  obtain ⟨b, hb, hquiet⟩ := (last_registration_runs m).2 hrun none
  rw [hseeded, if_pos rfl] at hseen hquiet
  rw [hcontexts] at hb hquiet
  exact ⟨m, s, a, b, hfirst, hrun, ha, hseen, hb, hquiet⟩

end Stage

end CallbackLocks
