import ServiceSim.Proofs.Evaluation.Binding
import ServiceSim.Proofs.Interpreter.CallSites
import ServiceSim.Proofs.Interpreter.Scopes

/-!
# What a call does to the frames of its caller

A callee works on the stack of its caller.  It may call others, iterate, fork and bind what it gets
returned, and yet it leaves alone what it has found there.

* `OutgoingCall` is a call that an activity is about to begin, with what follows it.
* `Kernel.Calling` follows a kernel from there until the process turns to what follows, among all
  that may happen in between, and keeps account of the result frame of the callee: it is empty when the
  callee is entered, and only the callee itself binds variables in it (`OutgoingCall.collected`).
* `OutgoingCall.Place` says where the process is: before the call, or in the scope of the call and
  above the frames of the caller, where it stays because scopes are nested (`advance_within`).
* `OutgoingCall.Returns` says what the return does, the only step that touches a frame of the caller.
  `Brings` lists what the current frame of the caller gains.

`calls_spare_callers` is the result.
-/

namespace ServiceSim

open Activity

/-! ## Calls -/

/-- An external call that an activity is about to begin. -/
structure OutgoingCall where
  /-- The action. -/
  action : Action
  /-- What is called. -/
  call : ExternalCall
  /-- What is to be done after the call. -/
  following : List Task

/-- The external call with which an activity begins. -/
def Activity.outgoing? (a : Activity) : Option OutgoingCall :=
  match a.tasks with
  | .walk behavior depth (action :: actions) :: tasks =>
    match action.kind with
    | .externalCall call =>
      some ⟨action, call, .finish action :: .walk behavior depth actions :: tasks⟩
    | _ => none
  | _ => none

lemma Activity.outgoing?_spec {x : OutgoingCall} {a : Activity} (h : a.outgoing? = some x) :
    ∃ behavior depth actions tasks, a.tasks = .walk behavior depth (x.action :: actions) :: tasks ∧
      x.action.kind = .externalCall x.call ∧
      x.following = .finish x.action :: .walk behavior depth actions :: tasks := by
  unfold outgoing? at h
  split at h
  next behavior depth action actions tasks htasks =>
    split at h
    next call hkind =>
      cases h
      exact ⟨behavior, depth, actions, tasks, htasks, hkind, rfl⟩
    next => cases h
  next => cases h

lemma Activity.outgoing?_length {x : OutgoingCall} {a : Activity} (h : a.outgoing? = some x) :
    a.tasks.length + 1 = x.following.length := by
  obtain ⟨behavior, depth, actions, tasks, htasks, -, hfollowing⟩ := outgoing?_spec h
  rw [htasks, hfollowing]
  rfl

/-- What a call with these returns brings to its caller from the result frame of the callee. -/
inductive Brings (returns : List VariableUsage) (output : Frame) (s : Source) :
    List (String × Binding) → Prop
  /-- Nothing is declared, so everything that the result frame binds itself is copied as it is. -/
  | everything (undeclared : returns = []) : Brings returns output s output.own
  /-- What is declared is evaluated in the result frame. -/
  | declared (some : returns ≠ []) {bound : List (String × Binding)} {s' : Source}
      (evaluated : Bound output s (declared returns) bound s') : Brings returns output s bound

/-- Binding what a call returns. -/
lemma Activity.bindReturns_gains (env : Environment) (returns : List VariableUsage)
    (output target : Frame) :
    ∃ bound g failure env', bindReturns env returns output target = (failure, g, env') ∧
      target.Gains bound g ∧
      (failure = none ∧ Brings returns output env.source bound ∨
        ∃ e s', failure = some e ∧ BoundUntil output env.source (declared returns) bound e s') := by
  unfold bindReturns
  split_ifs with hempty
  · have hreturns : returns = [] := by simpa using hempty
    exact ⟨_, _, _, _, rfl, target.gains_all output.own, .inl ⟨rfl, .everything hreturns⟩⟩
  · have hreturns : returns ≠ [] := by simpa using hempty
    rcases bindUsages_comprises returns output env.source with
      ⟨bound, s', hbound, hall⟩ | ⟨bound, e, s', huntil, hall⟩
    · exact ⟨bound, _, _, _, rfl, (hall target).gains,
        .inl ⟨(hall target).failure, .declared hreturns hbound⟩⟩
    · exact ⟨bound, _, _, _, rfl, (hall target).gains, .inr ⟨e, s', (hall target).failure, huntil⟩⟩

namespace OutgoingCall

variable {x : OutgoingCall} {a b : Activity} {output : Frame}

/-- The callee itself is at work, and nobody that it has called. -/
def IsAtWork (x : OutgoingCall) (b : Activity) : Prop :=
  b.tasks.countP Task.isReturn = x.following.countP Task.isReturn + 1

instance (x : OutgoingCall) (b : Activity) : Decidable (x.IsAtWork b) :=
  inferInstanceAs (Decidable (_ = _))

/-- The callee has done everything, and an activity is about to return from it. -/
def IsReturning (x : OutgoingCall) (b : Activity) : Prop :=
  ∃ site pushed saved, b.tasks = .return_ site pushed saved :: x.following

/-- What the next task of an activity makes of the result frame of the callee.  Those that the callee has
called have result frames of their own. -/
def collected (x : OutgoingCall) (b : Activity) (env : Environment) (output : Frame) : Frame :=
  if x.IsAtWork b then b.collecting env output else output

/-- Where an activity is that was about to begin a call, and what the result frame of the callee is. -/
inductive Place (x : OutgoingCall) (a : Activity) (output : Frame) (b : Activity) : Prop where
  /-- It still is, with its own result frame. -/
  | before : b = a → output = a.result → Place x a output b
  /-- It has entered the callee, and returns from it to its result frame and to what follows. -/
  | inside {site : CallSite} {pushed : FrameId} {inner : List Task} : site.call = x.call →
      b.tasks = inner ++ .return_ site pushed a.result :: x.following →
      restored inner b.result = output → a.stack.frames <:+ b.stack.frames → Place x a output b

/-- The frames of the caller are on the stack, -/
lemma Place.frames (h : x.Place a output b) : a.stack.frames <:+ b.stack.frames := by
  cases h with
  | before heq => exact heq ▸ List.suffix_refl _
  | inside _ _ _ hbelow => exact hbelow

/-- and there is more to do than what follows. -/
lemma Place.tasks_ne (h : x.Place a output b) (hx : a.outgoing? = some x) :
    b.tasks ≠ x.following := by
  intro htasks
  cases h with
  | before heq =>
    have hlength := outgoing?_length hx
    rw [← heq, htasks] at hlength
    exact Nat.succ_ne_self _ hlength
  | inside _ hinside =>
    have hlength := congrArg List.length hinside
    rw [htasks, List.length_append, List.length_cons] at hlength
    omega

/-- If there is one task more, it is the return, and the result frame is that of the callee. -/
lemma Place.returning (h : x.Place a output b) (hx : a.outgoing? = some x)
    (hlength : b.tasks.length = x.following.length + 1) :
    ∃ site pushed, site.call = x.call ∧ b.tasks = .return_ site pushed a.result :: x.following ∧
      b.result = output := by
  cases h with
  | before heq =>
    rw [heq, ← outgoing?_length hx] at hlength
    omega
  | @inside site pushed inner hsite hinside houtput =>
    rw [hinside, List.length_append, List.length_cons] at hlength
    obtain rfl : inner = [] := List.eq_nil_of_length_eq_zero (by omega)
    exact ⟨site, pushed, hsite, hinside, houtput⟩

/-- A caller is not at work in its callee. -/
lemma collected_outgoing (hx : a.outgoing? = some x) (env : Environment) (output : Frame) :
    x.collected a env output = output := by
  obtain ⟨behavior, depth, actions, tasks, htasks, -, hfollowing⟩ := outgoing?_spec hx
  refine if_neg fun hwork => ?_
  rw [IsAtWork, htasks, hfollowing] at hwork
  exact Nat.succ_ne_self _ hwork.symm

/-- The result frame of the callee is what comes to light when everything before the return is done, so
only a step of the callee itself can change it. -/
lemma restored_collecting {site : CallSite} {pushed : FrameId} {saved : Frame} {inner : List Task}
    (htasks : b.tasks = inner ++ .return_ site pushed saved :: x.following)
    (houtput : restored inner b.result = output) (env : Environment) :
    restored inner (b.collecting env b.result) = x.collected b env output := by
  have hcount : x.IsAtWork b ↔ inner.countP Task.isReturn = 0 := by
    rw [IsAtWork, htasks, List.countP_append, List.countP_cons_of_pos rfl]
    omega
  rw [collected]
  split_ifs with hwork
  · rw [restored_of_plain (hcount.mp hwork)] at houtput ⊢
    rw [houtput]
  · rw [← houtput]
    exact restored_congr (fun hplain => hwork (hcount.mpr hplain)) _ _

/-- A step takes an activity to a place, or ends by an error above the frames of the caller. -/
def Leads (x : OutgoingCall) (a : Activity) (output : Frame) (id : ProcessId) : Progress → Prop
  | .goes turn => ∃ b, turn.next.goesOn id = [(id, b)] ∧ x.Place a output b
  | .ends _ c => (∃ e, c.result = .error e) ∧ a.stack.frames <:+ c.stack.frames

/-- **How a call returns**, from the result frame of the callee to a caller with a current frame, others
below and a result frame. -/
inductive Returns (x : OutgoingCall) (id : ProcessId) (f : Frame) (below : List Frame)
    (saved : Frame) (s : Source) (output : Frame) : Progress → Prop where
  /-- The current frame gains what the call brings, and the caller goes on. -/
  | brings {turn : Turn Environment Activity} {c : Activity} {bound : List (String × Binding)}
      {g : Frame} : Brings x.call.returns output s bound → f.Gains bound g →
      turn.next.goesOn id = [(id, c)] → c.tasks = x.following → c.stack.frames = g :: below →
      c.result = saved → Returns x id f below saved s output (.goes turn)
  /-- A return usage fails to evaluate.  The current frame has gained those before it. -/
  | fails {env : Environment} {c : Completion} {bound : List (String × Binding)} {g : Frame}
      {e : EvalError} {s' : Source} : BoundUntil output s (declared x.call.returns) bound e s' →
      f.Gains bound g → c.result = .error (.evaluation e) → c.stack.frames = g :: below →
      Returns x id f below saved s output (.ends env c)

end OutgoingCall

namespace Activity

variable {x : OutgoingCall} {a b : Activity} {output : Frame} {entry : Entry}

lemma enterCallee_leads {now : SimTime} {id : ProcessId} (env : Environment) {site : CallSite}
    (hsite : site.call = x.call) (context : ContextId) (behavior : Behavior) :
    x.Leads a a.result id
      ({ a with tasks := x.following }.enterCallee now env site context behavior) := by
  unfold enterCallee
  split
  · exact ⟨⟨_, rfl⟩, List.suffix_refl _⟩
  · dsimp only
    split
    · exact ⟨⟨_, rfl⟩, List.suffix_refl _⟩
    next input env' _ =>
      have htasks : .invoke behavior :: .return_ site input.identity a.result :: x.following =
        [.invoke behavior] ++ .return_ site input.identity a.result :: x.following := rfl
      exact ⟨_, rfl, .inside hsite htasks rfl (List.suffix_cons _ _)⟩

/-- **The step that begins a call.** -/
lemma advance_outgoing (d : Deployment) (now : SimTime) (id : ProcessId) (env : Environment)
    (hx : a.outgoing? = some x) : x.Leads a a.result id (a.advance d now id env) := by
  obtain ⟨behavior, depth, actions, tasks, htasks, hkind, hfollowing⟩ := outgoing?_spec hx
  have hbegins : a.advance d now id env = { a with tasks := x.following }.beginCall d now id
      (env.note (.actionEntered x.action)) x.action x.call := by
    rw [advance, htasks]
    simp only [performTask, walkOn, perform, hkind, hfollowing]
    rfl
  rw [hbegins, beginCall]
  split
  · exact ⟨⟨_, rfl⟩, List.suffix_refl _⟩
  next site context behavior hcallee =>
    obtain ⟨caller, outer, -, -, rfl, -⟩ := callee_ok hcallee
    exact enterCallee_leads _ rfl context behavior

/-- **A step inside a call.** -/
lemma advance_inside (d : Deployment) (now : SimTime) (id : ProcessId) (env : Environment)
    (balanced : b.IsBalanced entry) {site : CallSite} {pushed : FrameId} {inner : List Task}
    (hsite : site.call = x.call)
    (htasks : b.tasks = inner ++ .return_ site pushed a.result :: x.following)
    (houtput : restored inner b.result = output) (unreturned : ¬ x.IsReturning b)
    (hframes : a.stack.frames <:+ b.stack.frames)
    (depth : a.stack.frames.length = entry.frames.length + x.following.countP Task.takesOff) :
    x.Leads a (x.collected b env output) id (b.advance d now id env) := by
  have hinner : inner ≠ [] := by
    rintro rfl
    exact unreturned ⟨_, _, _, htasks⟩
  have habove := advance_within d now id env balanced rfl htasks hinner hframes depth
  cases hadvance : b.advance d now id env with
  | goes turn =>
    rw [hadvance] at habove
    obtain ⟨c, hnext, ⟨more, hmore, hresult⟩, hbelow⟩ := habove
    exact ⟨c, hnext, .inside hsite hmore
      (hresult.trans (OutgoingCall.restored_collecting htasks houtput env)) hbelow⟩
  | ends env' c =>
    rw [hadvance] at habove
    exact habove

/-- **The step that returns from a call.** -/
lemma advance_returning (d : Deployment) (now : SimTime) (id : ProcessId) (env : Environment)
    (balanced : b.IsBalanced entry) {site : CallSite} {pushed : FrameId} {saved : Frame}
    (hsite : site.call = x.call) (htasks : b.tasks = .return_ site pushed saved :: x.following)
    {f : Frame} {below : List Frame} (hframes : (f :: below) <:+ b.stack.frames)
    (depth : (f :: below).length = entry.frames.length + x.following.countP Task.takesOff) :
    x.Returns id f below saved env.source b.result (b.advance d now id env) := by
  obtain ⟨top, htop⟩ := balanced.frames_of_closing htasks rfl hframes depth
  rw [IsBalanced, htasks] at balanced
  obtain ⟨outer, callee, callers, hidentities, hcontexts, hrest⟩ := balanced
  rw [VariableStack.identities, htop, List.map_cons, List.cons.injEq] at hidentities
  obtain ⟨bound, g, failure, env', hbind, hgains, hcases⟩ :=
    bindReturns_gains env site.call.returns b.result f
  rw [hsite] at hcases
  rw [advance, htasks]
  dsimp only [performTask]
  unfold finishCall leaveFrame VariableStack.popExpecting
  simp only [hcontexts, htop, if_pos hidentities.1, VariableStack.current, VariableStack.replaceTop,
    hbind]
  rcases hcases with ⟨rfl, hbrings⟩ | ⟨e, s', rfl, huntil⟩
  · exact .brings hbrings hgains rfl rfl rfl rfl
  · refine .fails huntil hgains ?_ rfl
    dsimp only
    rw [unwind_balanced hrest]

end Activity

/-! ## Calls among everything else -/

namespace Kernel

/-- The kernels from the one in which a process is about to begin a call until the process turns to
what follows, with the result frame of the callee; that of the caller stands for it until the callee is
entered.  Anything may happen in between. -/
inductive Calling (d : Deployment) (id : ProcessId) (a : Activity) (x : OutgoingCall) :
    Kernel Environment Activity → Frame → Prop where
  /-- The process runs, and the call comes next. -/
  | begins {k : Kernel Environment Activity} : k.Disciplined → k.running = some (id, a) →
      a.outgoing? = some x → Calling d id a x k a.result
  /-- The process takes its turn, and does not come to what follows. -/
  | turns {stop : Option SimTime} {k k' : Kernel Environment Activity} {output : Frame}
      {b : Activity} : Calling d id a x k output → k.running = some (id, b) →
      k.step (program d) stop = .goes k' → (∀ c, (id, c) ∈ k'.processes → c.tasks ≠ x.following) →
      Calling d id a x k' (x.collected b k.world output)
  /-- Something else happens. -/
  | elsewhere {k k' : Kernel Environment Activity} {output : Frame} : Calling d id a x k output →
      Event d k k' → (∀ b, k.running = some (id, b) → k'.running = some (id, b)) →
      Calling d id a x k' output

variable {d : Deployment} {k k' : Kernel Environment Activity} {id : ProcessId} {a b c : Activity}
  {entry : Entry} {x : OutgoingCall} {f output : Frame} {below : List Frame}

/-- A process that performs a call, and follows its entry. -/
structure UnderWay (entry : Entry) (id : ProcessId) (a : Activity) (x : OutgoingCall) (f : Frame)
    (below : List Frame) (k : Kernel Environment Activity) (output : Frame) : Prop where
  outgoing : a.outgoing? = some x
  frames : a.stack.frames = f :: below
  follows : Follows entry id k
  depth : (f :: below).length = entry.frames.length + x.following.countP Task.takesOff
  place : ∀ b, (id, b) ∈ k.processes → x.Place a output b

namespace UnderWay

/-- Every turn but the return. -/
lemma leads (h : UnderWay entry id a x f below k output) (runs : k.running = some (id, b))
    (unreturned : ¬ x.IsReturning b) :
    x.Leads a (x.collected b k.world output) id (b.advance d k.now id k.world) := by
  cases h.place b (running_mem runs) with
  | before heq houtput =>
    subst heq houtput
    rw [OutgoingCall.collected_outgoing h.outgoing]
    exact advance_outgoing d k.now id k.world h.outgoing
  | inside hsite htasks houtput hframes =>
    have hbalanced := h.follows.balanced _ (running_mem runs) rfl
    exact advance_inside d k.now id k.world hbalanced hsite htasks houtput unreturned hframes
      (h.frames ▸ h.depth)

/-- The return. -/
lemma returns (h : UnderWay entry id a x f below k output) (runs : k.running = some (id, b))
    (returning : x.IsReturning b) :
    x.Returns id f below a.result k.world.source output (b.advance d k.now id k.world) := by
  obtain ⟨_, _, _, htasks⟩ := returning
  have hplace := h.place b (running_mem runs)
  obtain ⟨site, pushed, hsite, htasks, houtput⟩ :=
    hplace.returning h.outgoing (by rw [htasks, List.length_cons])
  have hbalanced := h.follows.balanced _ (running_mem runs) rfl
  exact houtput ▸ advance_returning d k.now id k.world hbalanced hsite htasks
    (h.frames ▸ hplace.frames) h.depth

/-- What a turn makes of the process: it stays in the call, or it has returned from it. -/
lemma turn_cases (h : UnderWay entry id a x f below k output) (runs : k.running = some (id, b))
    {turn : Turn Environment Activity} (hgoes : b.advance d k.now id k.world = .goes turn)
    (hc : (id, c) ∈ turn.next.goesOn id) :
    x.Place a (x.collected b k.world output) c ∨ x.IsReturning b ∧ ∃ bound g,
      Brings x.call.returns output k.world.source bound ∧ f.Gains bound g ∧
      c.tasks = x.following ∧ c.stack.frames = g :: below ∧ c.result = a.result := by
  by_cases returning : x.IsReturning b
  · have hreturns := h.returns (d := d) runs returning
    rw [hgoes] at hreturns
    rcases hreturns with ⟨hbrings, hgains, hsingle, htasks, hframes, hresult⟩
    rw [hsingle, List.mem_singleton, Prod.mk.injEq] at hc
    obtain ⟨-, rfl⟩ := hc
    exact .inr ⟨returning, _, _, hbrings, hgains, htasks, hframes, hresult⟩
  · have hleads := h.leads (d := d) runs returning
    rw [hgoes] at hleads
    obtain ⟨c', hsingle, hplace⟩ := hleads
    rw [hsingle, List.mem_singleton, Prod.mk.injEq] at hc
    exact .inl (hc.2 ▸ hplace)

end UnderWay

/-- In every kernel of a call the process performs it. -/
lemma Calling.underWay (h : Calling d id a x k output) (hframes : a.stack.frames = f :: below) :
    ∃ entry, UnderWay entry id a x f below k output := by
  induction h with
  | begins disciplined runs hx =>
    obtain ⟨behavior, depth, actions, tasks, htasks, -, hfollowing⟩ := outgoing?_spec hx
    obtain ⟨entry, hfollows, hlength⟩ := disciplined.follows_walking runs htasks
    refine ⟨entry, hx, hframes, hfollows, hfollowing ▸ hframes ▸ hlength, fun b hb => ?_⟩
    exact .before (Prod.mk.inj (disciplined.order.unique hb (running_mem runs) rfl)).2 rfl
  | turns _ runs hstep unfinished ih =>
    obtain ⟨entry, h⟩ := ih
    have order := h.follows.disciplined.order
    have turned := step_turned order runs hstep
    refine ⟨entry, h.outgoing, h.frames, turned.follows h.follows runs, h.depth, fun c hc => ?_⟩
    obtain ⟨turn, hgoes, hnext⟩ := turn_goesOn ((turned.mem_processes_self order runs).mp hc)
    rcases h.turn_cases runs hgoes hnext with hplace | ⟨_, _, _, _, _, htasks, _⟩
    · exact hplace
    · exact absurd htasks (unfinished c hc)
  | @elsewhere k k' output _ event same ih =>
    obtain ⟨entry, h⟩ := ih
    have hfollows := event_follows event h.follows
    refine ⟨entry, h.outgoing, h.frames, hfollows, h.depth, fun c hc => ?_⟩
    rcases event_process event h.follows.disciplined h.follows.begun hc with hc' | ⟨b, _, runs, -⟩
    · exact h.place c hc'
    · have heq := hfollows.disciplined.order.unique hc (running_mem (same b runs)) rfl
      exact (Prod.mk.inj heq).2 ▸ h.place b (running_mem runs)

/-- **What a call does to the frames of its caller**, the current one on top of others, when the result
frame of the callee is this one. -/
structure SparesCaller (d : Deployment) (id : ProcessId) (a : Activity) (x : OutgoingCall)
    (f : Frame) (below : List Frame) (k : Kernel Environment Activity) (output : Frame) : Prop where
  /-- All frames of the caller are on the stack, as they were. -/
  kept : ∀ b, (id, b) ∈ k.processes → (f :: below) <:+ b.stack.frames
  /-- They also are if the call ends before its return, which is by an error. -/
  failed : ∀ b env c, k.running = some (id, b) → ¬ x.IsReturning b →
    b.advance d k.now id k.world = .ends env c →
    (∃ e, c.result = .error e) ∧ (f :: below) <:+ c.stack.frames
  /-- The return changes the current frame of the caller alone, by what the call brings. -/
  returned : ∀ b, k.running = some (id, b) → x.IsReturning b →
    x.Returns id f below a.result k.world.source output (b.advance d k.now id k.world)
  /-- The caller comes to what follows the call by the return, and in no other way. -/
  resumed : ∀ k' c, Event d k k' → (id, c) ∈ k'.processes → c.tasks = x.following →
    ∃ b bound g, k.running = some (id, b) ∧ x.IsReturning b ∧
      Brings x.call.returns output k.world.source bound ∧ f.Gains bound g ∧
      c.stack.frames = g :: below ∧ c.result = a.result

/-- **Calls spare their callers.**  A process begins a call, with a current frame on top of others.
Whatever the callee does, and whatever else happens, these frames stay as they are until the process
returns from the call, also if the call ends by an error.  If it returns, the current frame gains what
the call brings from the result frame of the callee, and nothing else of the frames changes. -/
theorem calls_spare_callers (h : Calling d id a x k output)
    (hframes : a.stack.frames = f :: below) : SparesCaller d id a x f below k output := by
  obtain ⟨entry, hunderWay⟩ := h.underWay hframes
  refine ⟨fun b hb => ?_, fun b env c runs unreturned hends => ?_,
    fun b runs returning => hunderWay.returns runs returning, fun k' c event hc htasks => ?_⟩
  · exact hframes ▸ (hunderWay.place b hb).frames
  · have hleads := hunderWay.leads (d := d) runs unreturned
    rw [hends] at hleads
    exact hframes ▸ hleads
  · rcases event_process event hunderWay.follows.disciplined hunderWay.follows.begun hc with
      hc' | ⟨b, turn, runs, hgoes, hnext⟩
    · exact absurd htasks ((hunderWay.place c hc').tasks_ne hunderWay.outgoing)
    rcases hunderWay.turn_cases runs hgoes hnext with
      hplace | ⟨returning, bound, g, hbrings, hgains, -, hstack, hresult⟩
    · exact absurd htasks (hplace.tasks_ne hunderWay.outgoing)
    · exact ⟨b, bound, g, runs, returning, hbrings, hgains, hstack, hresult⟩

lemma Calling.disciplined (h : Calling d id a x k output) : k.Disciplined := by
  induction h with
  | begins disciplined => exact disciplined
  | turns _ _ hstep _ ih => exact event_disciplined (.goes hstep) ih
  | elsewhere _ event _ ih => exact event_disciplined event ih

/-- Turns after which the process runs and has more to do than what follows. -/
lemma Calling.steps (h : Calling d id a x k output) (runs : k.running = some (id, b)) {n : Nat}
    (more : ∀ m < n, ((next d)^[m + 1] k).running.map
      (fun p => (p.1, decide (x.following.length < p.2.tasks.length))) = some (id, true)) :
    ∃ output b, Calling d id a x ((next d)^[n] k) output ∧
      ((next d)^[n] k).running = some (id, b) := by
  induction n with
  | zero => exact ⟨output, b, h, runs⟩
  | succ n ih =>
    obtain ⟨output, b, hn, runs⟩ := ih fun m hm => more m (Nat.lt_succ_of_lt hm)
    have hmore := more n (Nat.lt_succ_self n)
    rw [Function.iterate_succ_apply'] at hmore ⊢
    obtain ⟨⟨other, c⟩, runs', hmore⟩ := Option.map_eq_some_iff.mp hmore
    rw [Prod.mk.injEq, decide_eq_true_iff] at hmore
    obtain ⟨rfl, hlength⟩ := hmore
    have order := (event_disciplined (event_next d _) hn.disciplined).order
    refine ⟨_, c, hn.turns runs (step_next runs) fun c' hc' htasks => ?_, runs'⟩
    have heq := (Prod.mk.inj (order.unique hc' (running_mem runs') rfl)).2
    rw [← heq, htasks] at hlength
    exact lt_irrefl _ hlength

/-- A process about to return from a call with a return usage. -/
theorem calls_spare_callers_returning :
    ∃ (d : Deployment) (a b : Activity) (x : OutgoingCall) (f : Frame) (below : List Frame)
      (k : Kernel Environment Activity) (output : Frame), Calling d 0 a x k output ∧
      a.stack.frames = f :: below ∧ k.running = some (0, b) ∧ x.IsReturning b ∧
      x.call.returns ≠ [] ∧ SparesCaller d 0 a x f below k output := by
  let seven : VariableUsage := ⟨"r", [⟨.value, ⟨"7", .literal (.int 7)⟩⟩]⟩
  let taken : VariableUsage := ⟨"x", [⟨.value, .variable_ "r.VALUE"⟩]⟩
  let back : Behavior :=
    ⟨"back", [⟨"b0", "", some "b1", .start⟩, ⟨"b1", "", none, .setVariable [seven]⟩]⟩
  let front : Behavior := ⟨"front", [⟨"f0", "", some "f1", .start⟩,
    ⟨"f1", "", none, .externalCall ⟨"next", "serve", [], [taken]⟩⟩]⟩
  let d : Deployment := ⟨⟨"", [⟨"Front", "", []⟩, ⟨"Back", "", [⟨"serve", back⟩]⟩],
    [⟨"A", "", "Front"⟩, ⟨"B", "", "Back"⟩], [⟨"A", "next", "B"⟩], [], [], []⟩, by rfl⟩
  let env : Environment := .initial (.ofWords []) ⟨[]⟩
  let root : Frame := (Frame.empty 7).set "x.VALUE" (.bool true)
  let k₀ : Kernel Environment Activity :=
    (initial env).spawn (.interpreting "p" 0 "A" root front)
  let k := (next d)^[5] k₀
  have hbegins : k₀.Disciplined :=
    event_disciplined (d := d) (.enters (.interpreting _ _ _ _ _)) (initial_disciplined env rfl)
  have disciplined : k.Disciplined :=
    Function.Iterate.rec Disciplined hbegins (fun _ h => event_disciplined (event_next d _) h) 5
  have hcalls : (k.running.bind fun p => p.2.outgoing?.map fun x =>
      (p.1, p.2.stack.frames.length, x.following.length, x.call.returns.length)) =
        some (0, 1, 2, 1) := by
    decide +kernel
  have hsteps : ∀ m < 7, ((next d)^[m + 1] k).running.map
      (fun p => (p.1, decide (2 < p.2.tasks.length))) = some (0, true) := by
    decide +kernel
  have hlast : ((next d)^[7] k).running.map (fun p => (p.1, p.2.tasks.length)) = some (0, 3) := by
    decide +kernel
  obtain ⟨⟨id, a⟩, runs, hcalls⟩ := Option.bind_eq_some_iff.mp hcalls
  obtain ⟨x, hx, hcalls⟩ := Option.map_eq_some_iff.mp hcalls
  simp only [Prod.mk.injEq] at hcalls
  obtain ⟨rfl, hframes, hfollowing, hreturns⟩ := hcalls
  obtain ⟨f, hframes⟩ := List.length_eq_one_iff.mp hframes
  obtain ⟨output, b, h, runs'⟩ :=
    Calling.steps (.begins disciplined runs hx) runs (hfollowing ▸ hsteps)
  rw [runs', Option.map_some, Option.some.injEq, Prod.mk.injEq] at hlast
  obtain ⟨entry, hunderWay⟩ := h.underWay hframes
  obtain ⟨site, pushed, -, htasks, -⟩ :=
    (hunderWay.place b (running_mem runs')).returning hx (by rw [hlast.2, hfollowing])
  refine ⟨d, a, b, x, f, [], _, output, h, hframes, runs', ⟨site, pushed, a.result, htasks⟩, ?_,
    calls_spare_callers h hframes⟩
  rintro hnone
  rw [hnone] at hreturns
  cases hreturns

end Kernel

end ServiceSim
