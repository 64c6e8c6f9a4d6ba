import ServiceSim.Proofs.Interpreter.Elements
import ServiceSim.Proofs.Interpreter.ForkJoin
import ServiceSim.Proofs.Interpreter.Scopes

/-!
# From the first element to the last

`Kernel.Iterating` follows a kernel from the step in which a process asks for the size of a
collection until the process runs with all elements behind it, and lists the walks along the body as
they begin.  Meanwhile all other processes run, requests enter, runs end and begin again.

`Kernel.Place` says where the process is: inside a walk, with the frame of the element to leave and
the remaining elements to visit, or between two walks, with the frames that the iterator has found.
That these frames are there again when the next element comes, whatever the body has done, follows
from the nesting of scopes (`Activity.Moved.inside`).

`iterations_see_size` is the result.  The body is walked along once for each element, and reads one
size in each walk, but this need not be the size that the iterator has asked for if the size is
drawn whenever it is read (`iteration_size_resampled`).
-/

namespace ServiceSim

open Activity

/-! ## Histories -/

namespace Kernel

/-- The kernels between the step in which a process asks for the size of a collection and the turn
that finds all elements behind it, with the walks that have begun so far. -/
inductive Iterating (d : Deployment) (id : ProcessId) (a : Activity) (source : Source)
    (x : Iteration) : Kernel Environment Activity → List ElementWalk → Prop where
  /-- The process asks for the size. -/
  | asks {stop : Option SimTime} {k k' : Kernel Environment Activity} : k.Emerges d →
      k.running = some (id, a) → a.iteration? = some x → k.world.source = source →
      k.step (program d) stop = .goes k' → Iterating d id a source x k' []
  /-- The process turns to the next element, and the walk for it begins. -/
  | visits {stop : Option SimTime} {k k' : Kernel Environment Activity} {walks : List ElementWalk}
      {b c : Activity} {remaining : Nat} : Iterating d id a source x k walks →
      k.running = some (id, b) → b.tasks = x.visiting (remaining + 1) →
      k.step (program d) stop = .goes k' → k'.running = some (id, c) →
      Iterating d id a source x k' (walks ++ [⟨k.world.source, c⟩])
  /-- Another step is taken, but not by the process when all is over. -/
  | goes {stop : Option SimTime} {k k' : Kernel Environment Activity} {walks : List ElementWalk} :
      Iterating d id a source x k walks →
      (∀ b, k.running = some (id, b) →
        b.tasks ≠ x.following ∧ ∀ remaining, b.tasks ≠ x.visiting (remaining + 1)) →
      k.step (program d) stop = .goes k' → Iterating d id a source x k' walks
  /-- Something else happens. -/
  | interlude {k k' : Kernel Environment Activity} {walks : List ElementWalk} :
      Iterating d id a source x k walks → Interlude d k k' → Iterating d id a source x k' walks

variable {d : Deployment} {k k' : Kernel Environment Activity} {id other : ProcessId}
  {a b c : Activity} {entry : Entry} {x : Iteration} {f : Frame} {frames below : List Frame}
  {source : Source} {count : Int64} {total remaining : Nat} {walks : List ElementWalk}

/-! ## Where the process is -/

/-- Where a process is in an iterator, with elements that remain. -/
inductive Place (x : Iteration) (frames : List Frame) (remaining : Nat) (b : Activity) : Prop where
  /-- It has the frame of an element to leave, and everything that the iterator has found is below. -/
  | inside {element : FrameId} : (Task.leave element :: x.visiting remaining) <:+ b.tasks →
      frames <:+ b.stack.frames → Place x frames remaining b
  /-- It has left all elements that it has visited. -/
  | between : b.tasks = x.visiting remaining → b.stack.frames = frames → Place x frames remaining b
  /-- It has found that none remains. -/
  | passed : remaining = 0 → b.tasks = x.following → b.stack.frames = frames →
      Place x frames remaining b

/-- Steps that do not begin a walk. -/
lemma Place.goes (h : Place x frames remaining b) (balanced : b.IsBalanced entry)
    (depth : frames.length = entry.frames.length + x.following.countP Task.takesOff)
    (unfinished : b.tasks ≠ x.following) (unvisited : ∀ n, b.tasks ≠ x.visiting (n + 1))
    {now : SimTime} {env : Environment} {turn : Turn Environment Activity}
    (hadvance : b.advance d now id env = .goes turn) (hc : (id, c) ∈ turn.next.goesOn id) :
    Place x frames remaining c := by
  cases h with
  | inside htasks hframes =>
    have hmoves := advance_moves d now id env b
    rw [hadvance] at hmoves
    obtain ⟨b', hnext, hmoved⟩ := hmoves
    rw [hnext, List.mem_singleton, Prod.mk.injEq] at hc
    obtain ⟨-, rfl⟩ := hc
    rcases hmoved.inside balanced htasks hframes depth with ⟨htasks', hframes'⟩ | ⟨htasks', hframes'⟩
    · exact .inside htasks' hframes'
    · exact .between htasks' hframes'
  | between htasks hframes =>
    cases remaining with
    | succ n => exact absurd htasks (unvisited n)
    | zero =>
      rw [advance_visited d now id env htasks] at hadvance
      cases hadvance
      rw [Next.goesOn, List.mem_singleton, Prod.mk.injEq] at hc
      obtain ⟨-, rfl⟩ := hc
      exact .passed rfl rfl hframes
  | passed _ htasks => exact absurd htasks unfinished

/-- When it turns to an element it has left all others. -/
lemma Place.of_visiting (h : Place x frames remaining b) {n : Nat} (htasks : b.tasks = x.visiting n) :
    remaining = n ∧ b.stack.frames = frames := by
  cases h with
  | inside hinside =>
    have hlength := x.length_inside (htasks ▸ hinside)
    simp only [Iteration.visiting, List.length_cons] at hlength
    omega
  | between htasks' hstack =>
    rw [htasks, Iteration.visiting, Iteration.visiting] at htasks'
    injection htasks' with hvisit _
    injection hvisit with _ _ hremaining _
    exact ⟨hremaining.symm, hstack⟩
  | passed _ htasks' => exact absurd (htasks.symm.trans htasks') (x.visiting_ne_following n)

/-- When the elements are behind it, none remains. -/
lemma Place.of_following (h : Place x frames remaining b) (htasks : b.tasks = x.following) :
    remaining = 0 ∧ b.stack.frames = frames := by
  cases h with
  | inside hinside =>
    have hlength := x.length_inside (htasks ▸ hinside)
    omega
  | between htasks' => exact absurd (htasks'.symm.trans htasks) (x.visiting_ne_following _)
  | passed hremaining _ hstack => exact ⟨hremaining, hstack⟩

lemma Place.tasks_ne_nil (h : Place x frames remaining b) (hx : x.following ≠ []) : b.tasks ≠ [] := by
  cases h with
  | inside htasks => exact fun hnil => List.cons_ne_nil _ _ (List.suffix_nil.mp (hnil ▸ htasks))
  | between htasks => exact htasks ▸ List.cons_ne_nil _ _
  | passed _ htasks => exact htasks ▸ hx

/-- **A process that visits the elements of a collection**, of which there are a number in total. -/
structure Visiting (entry : Entry) (id : ProcessId) (x : Iteration) (f : Frame)
    (below : List Frame) (count : Int64) (total : Nat) (k : Kernel Environment Activity)
    (walks : List ElementWalk) : Prop where
  queued : k.Queued
  follows : Follows entry id k
  depth : (f :: below).length = entry.frames.length + x.following.countP Task.takesOff
  unfinished : x.following ≠ []
  counted : walks.length ≤ total
  place : ∀ b, (id, b) ∈ k.processes → Place x (f :: below) (total - walks.length) b
  walked : ∀ i w, walks[i]? = some w → ∃ element samples,
    x.WalksElement f (f :: below) (total - (i + 1)) w element samples ∧
      x.ShowsSize f count samples element

/-- What happens elsewhere leaves the process where it is. -/
lemma Visiting.elsewhere (h : Visiting entry id x f below count total k walks) (queued : k'.Queued)
    (follows : Follows entry id k') (same : ∀ b, (id, b) ∈ k'.processes → (id, b) ∈ k.processes) :
    Visiting entry id x f below count total k' walks :=
  { h with
    queued := queued
    follows := follows
    place := fun b hb => h.place b (same b hb) }

/-- A process that is about to perform an iterator has its frames balanced. -/
lemma Emerges.follows (h : k.Emerges d) (runs : k.running = some (id, a)) (hx : a.iteration? = some x) :
    ∃ entry, Follows entry id k ∧
      a.stack.frames.length = entry.frames.length + x.following.countP Task.takesOff := by
  obtain ⟨behavior, depth, actions, tasks, htasks, -, hfollowing⟩ := iteration?_spec hx
  obtain ⟨entry, hfollows, hlength⟩ := (reached_disciplined h.reached).follows_walking runs htasks
  rw [hfollowing]
  exact ⟨entry, hfollows, hlength⟩

/-- The turn that asks for the size. -/
lemma Turned.visiting_asks (emerges : k.Emerges d) (runs : k.running = some (id, a))
    (turned : Turned k k' id (a.turn d k.now id k.world)) (hx : a.iteration? = some x)
    (hframes : a.stack.frames = f :: below)
    (hcount : (x.size.evaluateInteger f.scope k.world.source).1 = .ok count)
    (htotal : count.toInt = total) :
    ∃ entry, Visiting entry id x f below count total k' [] := by
  obtain ⟨entry, hfollows, hdepth⟩ := emerges.follows runs hx
  have hcurrent : a.stack.current = .ok f := by
    rw [VariableStack.current, hframes]
  obtain ⟨_, _, _, _, -, -, hfollowing⟩ := iteration?_spec hx
  obtain ⟨env, b, hadvance, htasks, hstack⟩ :=
    advance_asking d k.now id k.world hx hcurrent hcount htotal
  refine ⟨entry, turned.queued emerges.queued runs, turned.follows hfollows runs, hframes ▸ hdepth,
    hfollowing ▸ List.cons_ne_nil _ _, Nat.zero_le _, fun c hc => ?_, fun i w hw => by cases hw⟩
  rw [turned.mem_processes_self hfollows.disciplined.order runs, turn, hadvance] at hc
  cases List.mem_singleton.mp hc
  refine .between htasks ?_
  rw [hstack, hframes]

/-- The turn to the next element, with which a walk begins. -/
lemma Turned.visiting_visits (h : Visiting entry id x f below count total k walks)
    (runs : k.running = some (id, b)) (turned : Turned k k' id (b.turn d k.now id k.world))
    (hf : f.Ordered) {s₀ : Source} (hcount : (x.size.evaluateInteger f.scope s₀).1 = .ok count)
    (htasks : b.tasks = x.visiting (remaining + 1)) (continues : k'.running = some (id, c)) :
    Visiting entry id x f below count total k' (walks ++ [⟨k.world.source, c⟩]) := by
  have hqueued := turned.queued h.queued runs
  have hc : (id, c) ∈ (b.turn d k.now id k.world).next.goesOn id :=
    (turned.mem_processes_self h.queued.joined.order runs).mp (running_mem continues)
  -- The process is between two walks, and all frames are there again.
  obtain ⟨hremaining, hstack⟩ := (h.place b (running_mem runs)).of_visiting htasks
  have hleft : total - (walks.length + 1) = remaining := by omega
  rcases advance_visiting d k.now id k.world htasks hstack hf with
    ⟨env, completion, hadvance⟩ | ⟨env, c', element, samples, hadvance, hwalks⟩
  · rw [turn, hadvance] at hc
    simp [report_ends.2, Next.goesOn] at hc
  rw [turn, hadvance] at hc
  cases List.mem_singleton.mp hc
  refine { h with
    queued := hqueued
    follows := turned.follows h.follows runs
    counted := ?_
    place := fun c' hc' => ?_
    walked := fun i w hw => ?_ }
  · rw [List.length_append, List.length_singleton]
    omega
  · cases hqueued.joined.order.unique hc' (running_mem continues) rfl
    rw [List.length_append, List.length_singleton, hleft]
    have htasks' := hwalks.tasks
    have hframes' := hwalks.frames
    dsimp only at htasks' hframes'
    exact .inside (htasks' ▸ List.suffix_cons _ _) (hframes' ▸ List.suffix_cons _ _)
  · rcases Nat.lt_or_ge i walks.length with hi | hi
    · rw [List.getElem?_append_left hi] at hw
      exact h.walked i w hw
    · have hlast : i = walks.length := by
        have := (List.getElem?_eq_some_iff.mp hw).1
        rw [List.length_append, List.length_singleton] at this
        omega
      subst hlast
      rw [List.getElem?_concat_length, Option.some.injEq] at hw
      subst hw
      obtain ⟨s, hsampled⟩ := hwalks.sampled
      exact ⟨element, samples, hleft ▸ hwalks, Iteration.showsSize hcount hwalks.settles hsampled⟩

/-- Every other turn of the process. -/
lemma Turned.visiting_goes (h : Visiting entry id x f below count total k walks)
    (runs : k.running = some (id, b)) (turned : Turned k k' id (b.turn d k.now id k.world))
    (unfinished : b.tasks ≠ x.following) (unvisited : ∀ n, b.tasks ≠ x.visiting (n + 1)) :
    Visiting entry id x f below count total k' walks := by
  refine { h with
    queued := turned.queued h.queued runs
    follows := turned.follows h.follows runs
    place := fun c hc => ?_ }
  rw [turned.mem_processes_self h.queued.joined.order runs] at hc
  obtain ⟨turn, hadvance, hc⟩ := turn_goesOn hc
  exact (h.place b (running_mem runs)).goes (h.follows.balanced _ (running_mem runs) rfl) h.depth
    unfinished unvisited hadvance hc

/-- Every kernel of an iterator is one in which the process visits the elements. -/
lemma Iterating.visiting (h : Iterating d id a source x k walks)
    (hframes : a.stack.frames = f :: below) (hf : f.Ordered)
    (hcount : (x.size.evaluateInteger f.scope source).1 = .ok count) (htotal : count.toInt = total) :
    ∃ entry, Visiting entry id x f below count total k walks := by
  induction h with
  | asks emerges runs hx hsource hstep =>
    have turned := step_turned emerges.queued.joined.order runs hstep
    exact turned.visiting_asks emerges runs hx hframes (hsource ▸ hcount) htotal
  | visits _ runs htasks hstep continues ih =>
    obtain ⟨entry, hvisiting⟩ := ih
    have turned := step_turned hvisiting.queued.joined.order runs hstep
    exact ⟨entry, turned.visiting_visits hvisiting runs hf hcount htasks continues⟩
  | goes _ elsewhere hstep ih =>
    obtain ⟨entry, hvisiting⟩ := ih
    refine ⟨entry, ?_⟩
    rcases step_cases hvisiting.queued.joined.order hstep with quiet | ⟨other, b, runs, turned⟩
    · exact hvisiting.elsewhere (quiet.queued hvisiting.queued) (quiet.follows hvisiting.follows)
        fun b hb => quiet.processes ▸ hb
    · by_cases hother : id = other
      · subst hother
        obtain ⟨unfinished, unvisited⟩ := elsewhere b runs
        exact turned.visiting_goes hvisiting runs unfinished unvisited
      · exact hvisiting.elsewhere (turned.queued hvisiting.queued runs)
          (turned.follows hvisiting.follows runs) fun b hb =>
            (turned.mem_processes_other runs hother hvisiting.follows.begun).mp hb
  | interlude _ interlude ih =>
    obtain ⟨entry, hvisiting⟩ := ih
    exact ⟨entry, hvisiting.elsewhere (interlude.queued hvisiting.queued)
      (event_follows interlude.event hvisiting.follows) fun b hb =>
        (interlude.mem_processes hvisiting.queued.joined.order hvisiting.follows.begun).mp hb⟩

/-! ## The end of an iterator -/

/-- The process runs with all elements behind it, or an error ends it now. -/
def IsOver (d : Deployment) (id : ProcessId) (x : Iteration) (k : Kernel Environment Activity) :
    Prop :=
  ∃ b, k.running = some (id, b) ∧ (b.tasks = x.following ∨
    ∃ env c e, b.advance d k.now id k.world = .ends env c ∧ c.result = .error e)

/-- A turn of the process leads on, unless all is over. -/
lemma Turned.leads_on (h : Iterating d id a source x k walks)
    (visiting : Visiting entry id x f below count total k walks) (hf : f.Ordered)
    (runs : k.running = some (id, b)) (turned : Turned k k' id (b.turn d k.now id k.world))
    (hstep : k.step (program d) none = .goes k') :
    IsOver d id x k ∨
      ∃ more c, Iterating d id a source x k' (walks ++ more) ∧ (id, c) ∈ k'.processes := by
  have hplace := visiting.place b (running_mem runs)
  by_cases hover : b.tasks = x.following
  · exact .inl ⟨b, runs, .inl hover⟩
  have hmoves := advance_moves d k.now id k.world b
  rw [turn] at turned
  cases hadvance : b.advance d k.now id k.world with
  | ends env completion =>
    rw [hadvance] at hmoves
    obtain ⟨e, he⟩ := hmoves (hplace.tasks_ne_nil visiting.unfinished)
    exact .inl ⟨b, runs, .inr ⟨env, completion, e, hadvance, he⟩⟩
  | goes turn =>
    right
    rw [hadvance] at turned hmoves
    by_cases hvisits : ∃ n, b.tasks = x.visiting (n + 1)
    · obtain ⟨n, htasks⟩ := hvisits
      rcases advance_visiting d k.now id k.world htasks (hplace.of_visiting htasks).2 hf with
        ⟨env, completion, hends⟩ | ⟨env, c, -, -, hgoes, -⟩
      · rw [hadvance] at hends
        cases hends
      · rw [hadvance] at hgoes
        cases hgoes
        have continues : k'.running = some (id, c) := by
          rw [turned.applied]
          rfl
        exact ⟨_, c, h.visits runs htasks hstep continues, running_mem continues⟩
    · obtain ⟨c, hgoes, -⟩ := hmoves
      refine ⟨[], c, ?_, ?_⟩
      · rw [List.append_nil]
        refine h.goes (fun b' runs' => ?_) hstep
        rw [runs] at runs'
        cases runs'
        exact ⟨hover, fun n htasks => hvisits ⟨n, htasks⟩⟩
      · rw [turned.mem_processes_self visiting.queued.joined.order runs, hgoes]
        exact List.mem_cons_self

/-- Every step leads on, unless all is over. -/
lemma Iterating.leads_on (h : Iterating d id a source x k walks)
    (visiting : Visiting entry id x f below count total k walks) (hf : f.Ordered)
    (present : (id, b) ∈ k.processes) (hstep : k.step (program d) none = .goes k') :
    IsOver d id x k ∨
      ∃ more c, Iterating d id a source x k' (walks ++ more) ∧ (id, c) ∈ k'.processes := by
  have hunmoved : (∀ c, k.running ≠ some (id, c)) →
      Iterating d id a source x k' (walks ++ []) := by
    intro idle
    rw [List.append_nil]
    exact h.goes (fun c runs => absurd runs (idle c)) hstep
  rcases step_cases visiting.queued.joined.order hstep with quiet | ⟨other, c, runs, turned⟩
  · refine .inr ⟨[], b, hunmoved fun c => ?_, quiet.processes ▸ present⟩
    rw [quiet.idle]
    exact Option.some_ne_none _ |>.symm
  · by_cases hother : id = other
    · subst hother
      exact turned.leads_on h visiting hf runs hstep
    · refine .inr ⟨[], b, hunmoved fun c' runs' => ?_,
        (turned.mem_processes_other runs hother visiting.follows.begun).mpr present⟩
      rw [runs] at runs'
      cases runs'
      exact hother rfl

/-- A run that returns without a time to stop at comes to the end of the iterator. -/
lemma Iterating.comes_to_end (h : Iterating d id a source x k walks)
    (hframes : a.stack.frames = f :: below) (hf : f.Ordered)
    (hcount : (x.size.evaluateInteger f.scope source).1 = .ok count) (htotal : count.toInt = total)
    (present : (id, b) ∈ k.processes) {fuel : Nat} (hrun : k.run (program d) none fuel = some k') :
    ∃ k₁ more, Relation.ReflTransGen (fun x y => x.step (program d) none = .goes y) k k₁ ∧
      Iterating d id a source x k₁ (walks ++ more) ∧ IsOver d id x k₁ := by
  induction fuel generalizing k walks b with
  | zero => cases hrun
  | succ fuel ih =>
    obtain ⟨entry, hvisiting⟩ := h.visiting hframes hf hcount htotal
    rw [run] at hrun
    cases hstep : k.step (program d) none with
    | ends k₁ =>
      -- The process would be left when the run ends.
      obtain ⟨-, hagenda⟩ := (step_ends hvisiting.queued.joined.order hstep).2 rfl
      rw [hvisiting.queued.all_finished hagenda] at present
      cases present
    | goes k₁ =>
      rw [hstep] at hrun
      rcases h.leads_on hvisiting hf present hstep with hover | ⟨more, c, hiterating, present'⟩
      · exact ⟨k, [], .refl, by rwa [List.append_nil], hover⟩
      · obtain ⟨k₂, further, hsteps, hiterating', hover⟩ := ih hiterating present' hrun
        rw [List.append_assoc] at hiterating'
        exact ⟨k₂, _, .head hstep hsteps, hiterating', hover⟩

/-- **What an iterator does** for a size that it has asked for in a frame. -/
structure VisitsElements (d : Deployment) (id : ProcessId) (a : Activity) (source : Source)
    (x : Iteration) (f : Frame) (count : Int64) (total : Nat) (k : Kernel Environment Activity)
    (walks : List ElementWalk) : Prop where
  /-- The body is never walked along more often than there are elements, -/
  counted : walks.length ≤ total
  /-- and exactly as often when the process has all elements behind it.  Then it has its frames back. -/
  completed : ∀ b, (id, b) ∈ k.processes → b.tasks = x.following →
    walks.length = total ∧ b.stack.frames = a.stack.frames
  /-- One walk follows another: each begins where the iterator has begun, in a frame of its own, which
  shows the size. -/
  walked : ∀ i w, walks[i]? = some w → ∃ element samples,
    x.WalksElement f a.stack.frames (total - (i + 1)) w element samples ∧
      x.ShowsSize f count samples element
  /-- A run that returns comes to the end of the last walk, or to an error of the process. -/
  ending : ∀ fuel k', k.run (program d) none fuel = some k' → (∃ b, (id, b) ∈ k.processes) →
    ∃ k₁ more b, Relation.ReflTransGen (fun x y => x.step (program d) none = .goes y) k k₁ ∧
      Iterating d id a source x k₁ (walks ++ more) ∧ k₁.running = some (id, b) ∧
      (b.tasks = x.following ∧ (walks ++ more).length = total ∨
        ∃ env c e, b.advance d k₁.now id k₁.world = .ends env c ∧ c.result = .error e)

/-! ## An iterator with a body that does nothing -/

/-- A process that runs, known by its identity and by how much it has to do. -/
lemma runs_of_length {n : Nat}
    (h : k.running.map (fun p => (p.1, p.2.tasks.length)) = some (id, n)) :
    ∃ b, k.running = some (id, b) ∧ b.tasks.length = n := by
  obtain ⟨⟨other, b⟩, runs, hb⟩ := Option.map_eq_some_iff.mp h
  cases hb
  exact ⟨b, runs, rfl⟩

/-- A behavior that only starts. -/
def idle : Behavior := ⟨"idle", [⟨"i0", "", none, .start⟩]⟩

/-- An action that does nothing for every element of a collection. -/
def idling : Action := ⟨"s1", "", none, .collectionIterator "files.INNER" idle⟩

/-- A behavior with this action. -/
def idlingBehavior : Behavior := ⟨"each", [⟨"s0", "", some "s1", .start⟩, idling]⟩

/-- The iterator of this action. -/
def idlingIteration : Iteration :=
  ⟨idling, "files.INNER", idle, [.finish idling, .walk idlingBehavior 1 []]⟩

/-- A frame in which the size of the collection is bound. -/
def sizing (binding : Binding) : Frame := (Frame.empty 7).bind idlingIteration.sizeName binding

/-- The kernel in which the iterator comes next. -/
def beforeIdling (d : Deployment) (source : Source) (binding : Binding) :
    Kernel Environment Activity :=
  (((((initial (.initial source ⟨[]⟩)).spawn
    (.interpreting "p" 0 "entry" (sizing binding) idlingBehavior) |>.next d).next d).next d).next d
    |>.next d)

/-- The step that asks for the size. -/
lemma iterating_idling (d : Deployment) (source : Source) (binding : Binding) :
    ∃ a, Iterating d 0 a source idlingIteration ((beforeIdling d source binding).next d) [] ∧
      a.stack.current = .ok (sizing binding) ∧ (sizing binding).Ordered := by
  have hemerges : Emerges d ((initial (.initial source ⟨[]⟩)).spawn
      (.interpreting "p" 0 "entry" (sizing binding) idlingBehavior)) :=
    .interlude (.starts _ rfl (by intro key s hs; cases hs)) (.enters (.interpreting _ _ _ _ _))
  have hbefore := hemerges.next.next.next.next.next
  exact ⟨_, .asks hbefore rfl rfl rfl (step_next rfl), rfl, (Frame.empty_ordered 7).bind _ _⟩

/-- Whether a process is outside all walks can be told from how much it has to do. -/
lemma Iterating.tasks_of_length (h : Iterating d id a source x k walks)
    (hcurrent : a.stack.current = .ok f) (hf : f.Ordered)
    (hcount : (x.size.evaluateInteger f.scope source).1 = .ok count) (htotal : count.toInt = total)
    (runs : k.running = some (id, b)) :
    (b.tasks.length = x.following.length → b.tasks = x.following) ∧
      (b.tasks.length = x.following.length + 1 → b.tasks = x.visiting (total - walks.length)) := by
  obtain ⟨below, hframes⟩ := VariableStack.frames_of_current hcurrent
  obtain ⟨entry, hvisiting⟩ := h.visiting hframes hf hcount htotal
  cases hvisiting.place b (running_mem runs) with
  | inside hinside =>
    have hlength := x.length_inside hinside
    exact ⟨fun h => by omega, fun h => by omega⟩
  | between htasks =>
    refine ⟨fun h => ?_, fun _ => htasks⟩
    rw [htasks, Iteration.visiting, List.length_cons] at h
    omega
  | passed _ htasks =>
    refine ⟨fun _ => htasks, fun h => ?_⟩
    rw [htasks] at h
    omega

/-- A step of the process that does not turn to another element. -/
lemma Iterating.goes_next (h : Iterating d id a source x k walks) (runs : k.running = some (id, b))
    (hlength : x.following.length < b.tasks.length) (unvisited : ∀ n, b.tasks ≠ x.visiting (n + 1)) :
    Iterating d id a source x (k.next d) walks := by
  refine h.goes (fun b' runs' => ?_) (step_next runs)
  rw [runs] at runs'
  cases runs'
  refine ⟨fun htasks => ?_, unvisited⟩
  rw [htasks] at hlength
  exact lt_irrefl _ hlength

/-- Steps inside a walk. -/
lemma Iterating.goes_within (h : Iterating d id a source x k walks) (n : Nat)
    (inside : ∀ i < n, ((next d)^[i] k).running.any (fun p =>
      p.1 == id && decide (x.following.length + 1 < p.2.tasks.length)) = true) :
    Iterating d id a source x ((next d)^[n] k) walks := by
  induction n with
  | zero => exact h
  | succ n ih =>
    obtain ⟨⟨other, b⟩, runs, hinside⟩ := Option.any_eq_true _ _ |>.mp (inside n (Nat.lt_succ_self n))
    rw [Bool.and_eq_true, beq_iff_eq, decide_eq_true_iff] at hinside
    obtain ⟨rfl, hlength⟩ := hinside
    rw [Function.iterate_succ_apply']
    refine (ih fun i hi => inside i (Nat.lt_succ_of_lt hi)).goes_next runs
      (Nat.lt_of_succ_lt hlength) fun m htasks => ?_
    dsimp only at hlength
    rw [htasks] at hlength
    exact lt_irrefl _ hlength

/-! ## The result -/

/-- **The body sees one size for each element.**  A process asks for the size of a collection, in a
frame whose layers are in order, and gets a number.  However the kernel goes on, the process walks
along the body once for each element, one after another, unless an error ends it.  At the beginning
of each walk the name of the size is read as one value, without a draw.  If reading what the name was
bound to draws nothing, this is the number that the process has asked for; a late binding is read as
the sample that has been drawn for the element. -/
theorem iterations_see_size (h : Iterating d id a source x k walks)
    (hcurrent : a.stack.current = .ok f) (hf : f.Ordered)
    (hcount : (x.size.evaluateInteger f.scope source).1 = .ok count) (htotal : count.toInt = total) :
    VisitsElements d id a source x f count total k walks := by
  obtain ⟨below, hframes⟩ := VariableStack.frames_of_current hcurrent
  have hcompleted : ∀ {k : Kernel Environment Activity} {walks : List ElementWalk},
      Iterating d id a source x k walks → ∀ b, (id, b) ∈ k.processes → b.tasks = x.following →
        walks.length = total ∧ b.stack.frames = a.stack.frames := by
    intro k walks h b hb htasks
    obtain ⟨entry, hvisiting⟩ := h.visiting hframes hf hcount htotal
    obtain ⟨hnone, hstack⟩ := (hvisiting.place b hb).of_following htasks
    have hcounted := hvisiting.counted
    exact ⟨by omega, hstack.trans hframes.symm⟩
  obtain ⟨entry, hvisiting⟩ := h.visiting hframes hf hcount htotal
  refine ⟨hvisiting.counted, hcompleted h, hframes ▸ hvisiting.walked, fun fuel k' hrun hpresent => ?_⟩
  obtain ⟨b, present⟩ := hpresent
  obtain ⟨k₁, more, hsteps, hiterating, c, runs, hover⟩ :=
    h.comes_to_end hframes hf hcount htotal present hrun
  refine ⟨k₁, more, c, hsteps, hiterating, runs, ?_⟩
  rcases hover with hfollowing | herror
  · exact .inl ⟨hfollowing, (hcompleted hiterating c (running_mem runs) hfollowing).1⟩
  · exact .inr herror

/-- A process that is in its walk for the first of two elements. -/
theorem iterations_see_size_first :
    ∃ (d : Deployment) (a : Activity) (source : Source) (x : Iteration) (f : Frame)
      (k : Kernel Environment Activity) (w : ElementWalk),
      Iterating d 0 a source x k [w] ∧ a.stack.current = .ok f ∧ f.Ordered ∧
      (x.size.evaluateInteger f.scope source).1 = .ok 2 ∧ (2 : Int64).toInt = (2 : Nat) ∧
      VisitsElements d 0 a source x f 2 2 k [w] := by
  let d : Deployment := ⟨⟨"", [], [], [], [], [], []⟩, rfl⟩
  let source : Source := .ofWords []
  let binding : Binding := .value (.int 2)
  let k := (beforeIdling d source binding).next d
  obtain ⟨a, hasks, hcurrent, hordered⟩ := iterating_idling d source binding
  have hcount : (idlingIteration.size.evaluateInteger (sizing binding).scope source).1 = .ok 2 :=
    ok_of_toOption (by decide +kernel)
  have htwo : (2 : Int64).toInt = (2 : Nat) := by decide
  obtain ⟨b, runs, hlength⟩ : ∃ b, k.running = some (0, b) ∧ b.tasks.length = 3 :=
    runs_of_length (by decide +kernel)
  obtain ⟨c, continues, -⟩ : ∃ c, (k.next d).running = some (0, c) ∧ c.tasks.length = 5 :=
    runs_of_length (by decide +kernel)
  have htasks := (hasks.tasks_of_length hcurrent hordered hcount htwo runs).2 hlength
  have hwalks := hasks.visits runs htasks (step_next runs) continues
  exact ⟨d, a, source, idlingIteration, sizing binding, _, _, hwalks, hcurrent, hordered, hcount, htwo,
    iterations_see_size hwalks hcurrent hordered hcount htwo⟩

/-- A process asks for the size of a collection that is drawn whenever it is read, and gets one.  In
the walk for this element it reads two, and then all elements are behind it. -/
theorem iteration_size_resampled :
    ∃ (d : Deployment) (a b : Activity) (source : Source) (x : Iteration) (f element : Frame)
      (k : Kernel Environment Activity) (w : ElementWalk),
      Iterating d 0 a source x k [w] ∧ a.stack.current = .ok f ∧
      (x.size.evaluateInteger f.scope source).1 = .ok 1 ∧
      w.start.stack.current = .ok element ∧
      (∀ s, x.size.evaluateInteger element.scope s = (.ok 2, s)) ∧
      k.running = some (0, b) ∧ b.tasks = x.following := by
  let d : Deployment := ⟨⟨"", [], [], [], [], [], []⟩, rfl⟩
  let coin : Specification := ⟨"UniInt(1, 2)", .call "UniInt" [.literal (.int 1), .literal (.int 2)]⟩
  let source : Source := .ofWords [0, 9223372036854775808]
  let binding : Binding := .late coin (.empty 0)
  let k₁ := (beforeIdling d source binding).next d
  let k₂ := k₁.next d
  obtain ⟨a, hasks, hcurrent, hordered⟩ := iterating_idling d source binding
  have hcount : (idlingIteration.size.evaluateInteger (sizing binding).scope source).1 = .ok 1 :=
    ok_of_toOption (by decide +kernel)
  have hone : (1 : Int64).toInt = (1 : Nat) := by decide
  obtain ⟨b₁, runs₁, hlength₁⟩ : ∃ b, k₁.running = some (0, b) ∧ b.tasks.length = 3 :=
    runs_of_length (by decide +kernel)
  obtain ⟨b₂, runs₂, hlength₂⟩ : ∃ b, k₂.running = some (0, b) ∧ b.tasks.length = 5 :=
    runs_of_length (by decide +kernel)
  let k₃ := (next d)^[4] k₂
  obtain ⟨b₃, runs₃, hlength₃⟩ : ∃ b, k₃.running = some (0, b) ∧ b.tasks.length = 3 :=
    runs_of_length (by decide +kernel)
  obtain ⟨b₄, runs₄, hlength₄⟩ : ∃ b, (k₃.next d).running = some (0, b) ∧ b.tasks.length = 2 :=
    runs_of_length (by decide +kernel)
  -- The walk begins.
  have htasks₁ := (hasks.tasks_of_length hcurrent hordered hcount hone runs₁).2 hlength₁
  have hwalks := hasks.visits runs₁ htasks₁ (step_next runs₁) runs₂
  have htwo : (k₂.running.bind fun p => (p.2.stack.current.toOption.bind
      (·.value? idlingIteration.sizeName)).bind Value.toInteger?) = some 2 := by decide +kernel
  rw [runs₂, Option.bind_some] at htwo
  obtain ⟨value, hvalue, hinteger⟩ := Option.bind_eq_some_iff.mp htwo
  obtain ⟨element, helement, hvalue⟩ := Option.bind_eq_some_iff.mp hvalue
  obtain ⟨bound, hget, hbound⟩ := Option.bind_eq_some_iff.mp hvalue
  have hreads : ∀ s, idlingIteration.size.evaluateInteger element.scope s = (.ok 2, s) := by
    intro s
    cases bound with
    | late specification origin => cases hbound
    | value v =>
      cases hbound
      have hread := Frame.reads_value hget s
      rw [Specification.evaluate_any] at hread
      rw [Iteration.size_run hread, Specification.convert, hinteger]
  -- It ends, and no element remains.
  have hleft := hwalks.goes_within 4 (by decide +kernel)
  have htasks₃ := (hleft.tasks_of_length hcurrent hordered hcount hone runs₃).2 hlength₃
  have hover := hleft.goes_next runs₃ (by rw [hlength₃]; decide) fun n htasks => by
    rw [htasks₃] at htasks
    cases htasks
  have htasks₄ := (hover.tasks_of_length hcurrent hordered hcount hone runs₄).1 hlength₄
  exact ⟨d, a, b₄, source, idlingIteration, sizing binding, element, _, _, hover, hcurrent, hcount,
    ok_of_toOption helement, hreads, runs₄, htasks₄⟩

end Kernel

end ServiceSim
