import ShellWalk.Proofs.Changes
import ShellWalk.Proofs.Termination

set_option autoImplicit false

namespace ShellWalk

theorem accounted_one (messages : List String) : Accounted 1 messages :=
  ⟨by simp, by simp⟩

theorem accounted_append (code : Int) (messages lines : List String)
    (accounted : Accounted code messages) : Accounted code (messages ++ lines) := by
  refine ⟨accounted.1, fun hard => ?_⟩
  have present := accounted.2 hard
  simp [present]

namespace Context

def Accounted (context : Context) : Prop := ShellWalk.Accounted context.exitCode context.errors

instance (context : Context) : Decidable context.Accounted :=
  inferInstanceAs (Decidable (ShellWalk.Accounted _ _))

-- The mode is part of the invariant, as programs may end with any exit code.
def Regulated (context : Context) : Prop := context.mode ≠ .real ∧ context.Accounted

theorem apply_regulated (completion : Completion) (accounted : completion.Accounted)
    (context : Context) (contained : context.mode ≠ .real) :
    (completion.apply context).Regulated := by
  refine ⟨contained, accounted.1, fun hard => ?_⟩
  have present := accounted.2 hard
  change context.errors ++ Text.linesOf completion.stderr ≠ []
  simp [present]

end Context

def Step.guarded (accepts : Context → Bool) (alarm : Halt) (step : Step) : Step :=
  step.andThen fun after => if accepts after then .ok after else .error alarm

theorem InStep.guarded {inv : Context → Prop} (accepts : Context → Bool)
    (always : ∀ context, inv context → accepts context = true) (alarm : Halt)
    (steps : Bool → Step) (inStep : InStep inv steps) : InStep inv fun run =>
      if run then Step.guarded accepts alarm (steps true) else steps false := by
  refine ⟨fun before inside => ?_, inStep.kept⟩
  have same := inStep.same before inside
  simp only [if_true, Bool.false_eq_true, if_false, Step.guarded]
  cases ran : steps false before with
  | error halt =>
      rw [ran] at same
      rw [Step.andThen_of_error _ _ _ _ same]
  | ok after =>
      rw [ran] at same
      have fine := always after (inStep.kept before after inside ran)
      rw [Step.andThen_of_ok _ _ _ _ same, if_pos fine]

namespace Walk

-- The evaluator with fuel, and a guard at the end of every walk: of the node itself, of all nodes
-- that it runs on the way and of the bodies that are called.
def watched (shell : Shell) (accepts : Context → Bool) (alarm spent : Halt) : Nat → Node → Step
  | 0, _ => fun _ => .error spent
  | fuel + 1, whole => Step.guarded accepts alarm (nodeWith shell.limits.iterations
      (dispatch shell (call shell.limits (watched shell accepts alarm spent fuel)))
      (watched shell accepts alarm spent fuel) whole)

def watchedRuns (shell : Shell) (accepts : Context → Bool) (alarm spent : Halt) (fuel : Nat) :
    Bool → Node → Step
  | true => watched shell accepts alarm spent fuel
  | false => fueled shell spent fuel

section InStep

variable {inv : Context → Prop} {shell : Shell} {run : Bool → Node → Step}

theorem inStep_dispatch (changes : Changes (InStep inv) fun _ => True)
    (handled : ∀ name arguments, InStep inv fun _ => handle shell name arguments)
    (inner : ∀ body, InStep inv fun which => run which body) (name : String)
    (arguments : List String) :
    InStep inv fun which => dispatch shell (call shell.limits (run which)) name arguments :=
  dispatch_of_reads (fun _ => shell) _ name arguments (changes.function name)
    (fun body => changes.call shell.limits run name body arguments (inner body))
    (handled name arguments)

theorem inStep_watched (changes : Changes (InStep inv) fun _ => True)
    (handled : ∀ name arguments, InStep inv fun _ => handle shell name arguments)
    (accepts : Context → Bool) (always : ∀ context, inv context → accepts context = true)
    (alarm spent : Halt) (fuel : Nat) (whole : Node) :
    InStep inv fun which => watchedRuns shell accepts alarm spent fuel which whole := by
  induction fuel generalizing whole with
  | zero =>
      have both : InStep inv fun _ _ => .error spent :=
        InStep.shared _ fun _ _ _ done => by cases done
      refine InStep.pointwise _ fun before _ => ⟨_, both, fun which => ?_⟩
      cases which <;> rfl
  | succ fuel ih =>
      have opened := changes.nodeWith shell.limits.iterations
        (fun which => dispatch shell
          (call shell.limits (watchedRuns shell accepts alarm spent fuel which)))
        (fun _ name _ _ _ texts => inStep_dispatch changes handled ih name.text texts)
        (watchedRuns shell accepts alarm spent fuel) whole trivial fun part _ => ih part
      have guarded := InStep.guarded accepts always alarm _ opened
      refine InStep.pointwise _ fun before _ => ⟨_, guarded, fun which => ?_⟩
      cases which <;> rfl

end InStep

theorem regulated_changes : Changes (InStep Context.Regulated) fun _ => True :=
  InStep.changes (fun _ _ _ _ => trivial) (fun _ _ here => here) (fun _ _ _ here => here)
    (fun _ _ _ _ _ here => here)
    (fun context lines here => ⟨here.1, accounted_append _ context.errors lines here.2⟩)
    fun _ _ here => ⟨here.1, accounted_one _⟩

theorem regulated_handle (host : Host) (limits : Limits) (name : String) (arguments : List String) :
    InStep Context.Regulated fun _ => handle ⟨host, .standard, limits⟩ name arguments := by
  refine InStep.shared _ fun before after here done => ?_
  obtain ⟨completion, accounted, ran⟩ :=
    Registry.standard_accounted host name arguments before.mode here.1
  simp only [handle, ran before rfl, Context.settle] at done
  cases done
  exact Context.apply_regulated completion accounted before here.1

theorem regulated_watched (host : Host) (limits : Limits) (alarm spent : Halt) (fuel : Nat)
    (whole : Node) : InStep Context.Regulated fun which => watchedRuns ⟨host, .standard, limits⟩
      (fun context => decide context.Accounted) alarm spent fuel which whole :=
  inStep_watched regulated_changes (regulated_handle host limits) _
    (fun _ here => decide_eq_true here.2) alarm spent fuel whole

end Walk

theorem Shell.walk_watched (host : Host) (limits : Limits) (node : Node) (context : Context)
    (regulated : context.Regulated) :
    (∀ after, walk ⟨host, .standard, limits⟩ node context = .ok after → after.Regulated) ∧
    ∃ enough, ∀ fuel, enough ≤ fuel → ∀ alarm spent,
      Walk.watched ⟨host, .standard, limits⟩ (fun context => decide context.Accounted) alarm spent
        fuel node context = walk ⟨host, .standard, limits⟩ node context := by
  obtain ⟨enough, reached⟩ := (Walk.settles_runs ⟨host, .standard, limits⟩
    (Registry.standard_keepsDepth host) _ node context (Nat.le_add_left ..)).reached
  constructor
  · intro after done
    have finished := (reached enough (Nat.le_refl enough) default).trans done
    have watched := Walk.regulated_watched host limits default default enough node
    exact watched.kept context after regulated finished
  · refine ⟨enough, fun fuel plenty alarm spent => ?_⟩
    have watched := Walk.regulated_watched host limits alarm spent fuel node
    exact (watched.same context regulated).trans (reached fuel plenty spent)

theorem exit_codes_accounted (host : Host) (limits : Limits) :
    (∀ (node : Node) (context after : Context), context.mode ≠ .real → context.Accounted →
      Shell.walk ⟨host, .standard, limits⟩ node context = .ok after → after.Accounted) ∧
    ∀ (program : Node) (options : Options), options.mode ≠ .real →
      (∀ result, Shell.run ⟨host, .standard, limits⟩ program options = .ok result →
        result.Accounted) ∧
      ∃ enough, ∀ fuel, enough ≤ fuel → ∀ alarm spent,
        Walk.watched ⟨host, .standard, limits⟩ (fun context => decide context.Accounted) alarm spent
            fuel program options.start =
          Shell.run ⟨host, .standard, limits⟩ program options := by
  constructor
  · intro node context after contained accounted done
    have walked := Shell.walk_watched host limits node context ⟨contained, accounted⟩
    exact (walked.1 after done).2
  · intro program options contained
    have fresh : options.start.Regulated := ⟨contained, show Accounted 0 [] by decide⟩
    obtain ⟨kept, watched⟩ := Shell.walk_watched host limits program options.start fresh
    exact ⟨fun result done => (kept result done).2, watched⟩

theorem exit_codes_accounted_unknown :
    let program := Node.ofGroup [.ofFunction "f" (.ofCommand "[" [.ofWord "x"] []),
      .ofCommand "f" [] [], .ofCommand "frobnicate" [] []]
    ∃ result, (Shell.standard .void).run program .standard = .ok result ∧ result.exitCode = 127 ∧
      result.errors = ["[: missing ']'", "frobnicate: command not found"] ∧ result.Accounted ∧
      ∃ fuel, ∀ alarm spent, Walk.watched (Shell.standard .void)
        (fun context => decide context.Accounted) alarm spent fuel program Options.standard.start =
          .ok result := by
  intro program
  obtain ⟨accounted, enough, watched⟩ :=
    (exit_codes_accounted .void .standard).2 program .standard (by decide)
  have finished : ∃ result, (Shell.standard .void).run program .standard = .ok result ∧
      result.exitCode = 127 ∧
      result.errors = ["[: missing ']'", "frobnicate: command not found"] := ⟨_, rfl, rfl, rfl⟩
  obtain ⟨result, done, code, errors⟩ := finished
  refine ⟨result, done, code, errors, accounted result done, enough, fun alarm spent => ?_⟩
  exact (watched enough (Nat.le_refl enough) alarm spent).trans done

end ShellWalk
