import ShellWalk.Proofs.Frame

set_option autoImplicit false

namespace ShellWalk

namespace Limits

def Below (small large : Limits) : Prop :=
  small.iterations ≤ large.iterations ∧ small.recursion ≤ large.recursion

-- The reports of a limit that has been reached; the name in front of the second one is free.
def Fired (limits : Limits) (line : String) : Prop :=
  (∃ untilTrue, line = Step.loopMessage untilTrue limits.iterations) ∨
  ∃ name, line = nestingMessage name limits.recursion

def Quiet (limits : Limits) (context : Context) : Prop :=
  ∀ line ∈ context.errors, ¬ limits.Fired line

theorem quiet_before (limits : Limits) (before after : Context)
    (grown : before.errors <+: after.errors) (quiet : limits.Quiet after) : limits.Quiet before :=
  fun line member => quiet line (grown.subset member)

end Limits

namespace Context

theorem popScope_errors (before after : Context) (done : before.popScope = .ok after) :
    after.errors = before.errors := by
  rw [popScope_ok before after done]

theorem errors_conserved : Conserved fun before after => before.errors <+: after.errors where
  refl := fun _ => List.prefix_rfl
  trans := fun _ _ _ first second => first.trans second
  setVariable := fun _ _ _ => List.prefix_rfl
  unsetVariable := fun _ _ => List.prefix_rfl
  define := fun _ _ _ => List.prefix_rfl
  addErrors := fun context lines => List.prefix_append context.errors lines
  setExitCode := fun _ _ => List.prefix_rfl
  inScope := fun context after popped inner done => by
    rw [popScope_errors after popped done]
    exact inner
  called := fun _ _ _ inner => inner

end Context

theorem Context.write_errors (context : Context) (text : String) :
    (context.write text).errors = context.errors := by
  unfold Context.write
  split <;> rfl

theorem Registry.standard_errors (host : Host) (name : String) (arguments : List String)
    (before after : Context) (done : standard.run host name arguments before = .ok after) :
    before.errors <+: after.errors := by
  obtain ⟨completion, text, applied⟩ := standard_applies host name arguments before
  rw [applied] at done
  cases done
  rw [← Context.write_errors before text]
  exact List.prefix_append _ _

namespace Step

def onward (untilTrue : Bool) (limit : Nat) (condition body : Step) : Nat → Step
  | 0 => update (·.addErrors [loopMessage untilTrue limit])
  | left + 1 => body.andThen fun after =>
      if after.stops then .ok after else rounds untilTrue limit condition body left after

theorem rounds_eq (untilTrue : Bool) (limit : Nat) (condition body : Step) (left : Nat) :
    rounds untilTrue limit condition body left = condition.andThen fun after =>
      if proceeds untilTrue after then onward untilTrue limit condition body left after
      else .ok after := by
  cases left <;> rfl

end Step

namespace Walk

-- The run under the small limits is `false`, the one under the large limits `true`. That errors
-- only grow makes a report at the end of the first run out of every report on its way.
structure Transparent (limits : Limits) (steps : Bool → Step) : Prop where
  grows : (steps false).Keeps fun before after => before.errors <+: after.errors
  same : ∀ before after, steps false before = .ok after → limits.Quiet after →
    steps true before = .ok after

section Transparency

variable {limits : Limits}

theorem transparent_shared (step : Step)
    (grows : step.Keeps fun before after => before.errors <+: after.errors) :
    Transparent limits fun _ => step :=
  ⟨grows, fun _ _ done _ => done⟩

theorem transparent_fired (steps : Bool → Step)
    (grows : (steps false).Keeps fun before after => before.errors <+: after.errors)
    (fires : ∀ before after, steps false before = .ok after →
      ∃ line ∈ after.errors, limits.Fired line) : Transparent limits steps := by
  refine ⟨grows, fun before after done quiet => ?_⟩
  obtain ⟨line, member, fired⟩ := fires before after done
  exact absurd fired (quiet line member)

theorem transparent_reads {α : Type} (read : Context → α) : Reads (Transparent limits) read := by
  intro next holds
  exact ⟨fun before => (holds (read before)).grows before,
    fun before => (holds (read before)).same before⟩

theorem transparent_andThen (first second : Bool → Step) (here : Transparent limits first)
    (later : Transparent limits second) :
    Transparent limits fun run => (first run).andThen (second run) := by
  refine ⟨Context.errors_conserved.andThen _ _ here.grows later.grows, ?_⟩
  intro before after done quiet
  obtain ⟨between, ran, rest⟩ := Step.andThen_ok _ _ before after done
  have quietBetween := limits.quiet_before between after (later.grows _ _ rest) quiet
  rw [Step.andThen_of_ok _ _ _ _ (here.same before between ran quietBetween)]
  exact later.same between after rest quiet

theorem transparent_control : Control (Transparent limits) where
  skip := transparent_shared _ (Conserved.update id fun _ => List.prefix_rfl)
  andThen := transparent_andThen
  succeeded := transparent_reads _
  stops := transparent_reads _

-- A loop that ends with no round left checks its condition once more. The larger run has rounds
-- left there and checks the condition as the start of its next one.
theorem transparent_rounds (bounds : Bool → Nat) (bound : bounds false = limits.iterations)
    (untilTrue : Bool) (condition body : Bool → Step) (checked : Transparent limits condition)
    (repeated : Transparent limits body) (small : Nat) (left : Bool → Nat)
    (here : left false = small) (fewer : left false ≤ left true) : Transparent limits fun run =>
      Step.rounds untilTrue (bounds run) (condition run) (body run) (left run) := by
  simp only [Step.rounds_eq]
  refine transparent_control.flow.whenProceeding untilTrue condition _ _ checked ?_
    transparent_control.skip
  induction small generalizing left with
  | zero =>
      apply transparent_fired
      · simp only [here, Step.onward]
        exact Conserved.update _ fun context => Context.errors_conserved.addErrors context _
      · intro before after done
        simp only [here, Step.onward, bound] at done
        cases done
        exact ⟨_, List.mem_append_right _ (List.mem_singleton_self _), .inl ⟨untilTrue, rfl⟩⟩
  | succ small ih =>
      have rest : Transparent limits fun run =>
          Step.rounds untilTrue (bounds run) (condition run) (body run) (left run - 1) := by
        simp only [Step.rounds_eq]
        have later := ih (fun run => left run - 1) (by omega) (by omega)
        exact transparent_control.flow.whenProceeding untilTrue condition _ _ checked later
          transparent_control.skip
      have round := transparent_control.unlessStopped body _ repeated rest
      have again : ∀ run, left run = left run - 1 + 1 := by
        intro run
        cases run <;> omega
      refine cast (congrArg (Transparent limits) ?_) round
      funext run
      rw [again run]
      rfl

end Transparency

def limited (host : Host) (small large : Limits) (run : Bool) : Shell :=
  ⟨host, .standard, if run then large else small⟩

section Limited

variable {host : Host} {small large : Limits}

theorem transparent_called (arguments : List String) (body : Bool → Step)
    (inner : Transparent small body) :
    Transparent small fun run => Step.called arguments (body run) :=
  transparent_control.called (transparent_reads _) arguments
    (transparent_shared _ (Conserved.update _ fun _ => List.prefix_rfl))
    (fun _ => transparent_shared _ (Conserved.update _ fun _ => List.prefix_rfl)) body inner

theorem transparent_call (below : small.Below large) (run : Bool → Node → Step)
    (inner : ∀ body, Transparent small fun which => run which body) (name : String) (body : Node)
    (arguments : List String) : Transparent small fun which =>
      call (limited host small large which).limits (run which) name body arguments := by
  have called := transparent_called arguments _ (inner body)
  refine ⟨?_, fun before after done quiet => ?_⟩
  · exact Context.errors_conserved.call small (run false) (fun body => (inner body).grows) name body
      arguments
  · change call small (run false) name body arguments before = .ok after at done
    change call large (run true) name body arguments before = .ok after
    have limits := below.2
    by_cases deep : small.recursion ≤ before.callDepth
    · simp only [call, if_pos deep] at done
      cases done
      exact absurd (.inr ⟨name, rfl⟩)
        (quiet _ (List.mem_append_right _ (List.mem_singleton_self _)))
    · simp only [call, if_neg deep] at done
      simp only [call, if_neg (show ¬ large.recursion ≤ before.callDepth by omega)]
      exact called.same before after done quiet

theorem transparent_handle (name : String) (arguments : List String) :
    Transparent small fun run => handle (limited host small large run) name arguments :=
  transparent_shared (handle (limited host small large false) name arguments)
    (Conserved.handle _ (Registry.standard_errors host) name arguments)

theorem transparent_pieces (below : small.Below large) (run : Bool → Node → Step)
    (inner : ∀ body, Transparent small fun which => run which body) :
    Pieces (Transparent small) (fun _ => True)
      (fun which => (limited host small large which).limits.iterations)
      (fun which => dispatch (limited host small large which)
        (call (limited host small large which).limits (run which))) := by
  refine Context.errors_conserved.lockstep transparent_control transparent_reads
    transparent_shared (fun _ => List.prefix_rfl) ?_ _ _ ?_ ?_
  · intro before after popped
    simp only [Context.popScope_errors before after popped, List.prefix_rfl]
  · intro untilTrue condition body checked repeated
    exact transparent_rounds _ rfl untilTrue condition body checked repeated _ _ rfl below.1
  · intro name arguments
    exact dispatch_of_reads _ _ name arguments (transparent_reads _)
      (fun body => transparent_call below run inner name body arguments)
      (transparent_handle name arguments)

theorem transparent_bodies (room : Bool → Nat) (more : room false ≤ room true)
    (inner : room false ≠ 0 → ∀ body, Transparent small fun run =>
      (limited host small large run).within (room run - 1) body) (body : Node) :
    Transparent small fun run => bodies (limited host small large run) (room run) body := by
  cases here : room false with
  | zero =>
      constructor
      · intro before after done
        rw [here] at done
        cases done
      · intro before after done
        rw [here] at done
        cases done
  | succ least =>
      have again : ∀ run, room run = room run - 1 + 1 := by
        intro run
        cases run <;> omega
      refine cast (congrArg (Transparent small) ?_) (inner (by omega) body)
      funext run
      rw [again run]
      rfl

theorem transparent_within (below : small.Below large) (room : Bool → Nat)
    (more : room false ≤ room true) (whole : Node) :
    Transparent small fun run => (limited host small large run).within (room run) whole := by
  obtain ⟨least, here⟩ : ∃ least, room false = least := ⟨_, rfl⟩
  induction least using Nat.strongRecOn generalizing room whole with
  | ind least ih =>
      have inner := @transparent_bodies host small large room more
        fun present body => ih (room false - 1) (by omega) (fun run => room run - 1) (by omega)
          body rfl
      simp only [within_eq]
      exact node_of_pieces (limited host small large) _ (transparent_pieces below _ inner) whole
        trivial

end Limited

end Walk

theorem limits_transparent (host : Host) (small large : Limits) (below : small.Below large)
    (program : Node) (options : Options) (result : Context)
    (done : Shell.run ⟨host, .standard, small⟩ program options = .ok result)
    (quiet : ∀ line ∈ result.errors, ¬ small.Fired line) :
    Shell.run ⟨host, .standard, large⟩ program options = .ok result := by
  have transparent : Walk.Transparent small fun run =>
      (Walk.limited host small large run).within
        (Walk.limited host small large run).limits.recursion program :=
    Walk.transparent_within below _ below.2 program
  exact transparent.same options.start result done quiet

theorem limits_transparent_at_bound :
    let program := Node.ofGroup [.ofFunction "f" (.ofCommand "true" [] []),
      .ofLoop false [.ofCommand "f" [] []] (.ofGroup [.ofCommand "echo" [.ofWord "once"] [],
        .ofFunction "f" (.ofCommand "false" [] [])])]
    ∃ result, Shell.run ⟨.void, .standard, ⟨1, 1⟩⟩ program .standard = .ok result ∧
      Shell.run ⟨.void, .standard, ⟨1000, 100⟩⟩ program .standard = .ok result ∧
      result.output = ["once"] ∧ result.errors = [] ∧ result.exitCode = 1 := by
  intro program
  have finished : ∃ result, Shell.run ⟨.void, .standard, ⟨1, 1⟩⟩ program .standard = .ok result ∧
      result.output = ["once"] ∧ result.errors = [] ∧ result.exitCode = 1 :=
    ⟨_, rfl, rfl, rfl, rfl⟩
  obtain ⟨result, done, output, silent, exitCode⟩ := finished
  refine ⟨result, done, ?_, output, silent, exitCode⟩
  refine limits_transparent .void ⟨1, 1⟩ ⟨1000, 100⟩ ⟨by decide, by decide⟩ program .standard
    result done ?_
  simp [silent]

end ShellWalk
