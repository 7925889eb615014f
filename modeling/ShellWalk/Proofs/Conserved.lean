import ShellWalk.Proofs.Walk

set_option autoImplicit false

namespace ShellWalk

def Step.Keeps (Q : Context → Context → Prop) (step : Step) : Prop :=
  ∀ before after, step before = .ok after → Q before after

structure Conserved (Q : Context → Context → Prop) : Prop where
  refl : ∀ context, Q context context
  trans : ∀ before between after, Q before between → Q between after → Q before after
  setVariable : ∀ context name value, Q context (context.setVariable name value)
  unsetVariable : ∀ context name, Q context (context.unsetVariable name)
  define : ∀ context name body, Q context (context.define name body)
  addErrors : ∀ context lines, Q context (context.addErrors lines)
  setExitCode : ∀ context code, Q context (context.setExitCode code)
  inScope : ∀ context after popped, Q context.pushScope after → after.popScope = .ok popped →
    Q context popped
  called : ∀ context arguments after, Q (context.enterCall arguments) after →
    Q context (after.leaveCall context.positional)

namespace Conserved

variable {Q : Context → Context → Prop} {Run : Type}

theorem and {R : Context → Context → Prop} (conserved : Conserved Q) (others : Conserved R) :
    Conserved fun before after => Q before after ∧ R before after where
  refl := fun context => ⟨conserved.refl context, others.refl context⟩
  trans := fun before between after first second =>
    ⟨conserved.trans before between after first.1 second.1,
      others.trans before between after first.2 second.2⟩
  setVariable := fun context name value =>
    ⟨conserved.setVariable context name value, others.setVariable context name value⟩
  unsetVariable := fun context name =>
    ⟨conserved.unsetVariable context name, others.unsetVariable context name⟩
  define := fun context name body =>
    ⟨conserved.define context name body, others.define context name body⟩
  addErrors := fun context lines =>
    ⟨conserved.addErrors context lines, others.addErrors context lines⟩
  setExitCode := fun context code =>
    ⟨conserved.setExitCode context code, others.setExitCode context code⟩
  inScope := fun context after popped inner done =>
    ⟨conserved.inScope context after popped inner.1 done,
      others.inScope context after popped inner.2 done⟩
  called := fun context arguments after inner =>
    ⟨conserved.called context arguments after inner.1,
      others.called context arguments after inner.2⟩

theorem andThen (conserved : Conserved Q) (first second : Step) (here : first.Keeps Q)
    (later : second.Keeps Q) : (first.andThen second).Keeps Q := by
  intro before after done
  obtain ⟨between, ran, rest⟩ := Step.andThen_ok first second before after done
  exact conserved.trans _ _ _ (here _ _ ran) (later _ _ rest)

theorem update (change : Context → Context) (related : ∀ context, Q context (change context)) :
    (Step.update change).Keeps Q := by
  intro before after done
  cases done
  exact related before

theorem restore (conserved : Conserved Q) (bindings : List (String × Option String))
    (context : Context) : Q context (Step.restore bindings context) := by
  induction bindings with
  | nil => exact conserved.refl context
  | cons binding rest ih =>
      rcases binding with ⟨name, value⟩
      refine conserved.trans _ _ _ ih ?_
      cases value with
      | none => exact conserved.unsetVariable _ name
      | some value => exact conserved.setVariable _ name value

theorem inScope_step (conserved : Conserved Q) (step : Step) (kept : step.Keeps Q) :
    (Step.inScope step).Keeps Q := by
  intro before after done
  obtain ⟨inner, ran, popped⟩ := Step.andThen_ok (fun context => step context.pushScope)
    Step.leaveScope before after done
  exact conserved.inScope before inner after (kept _ _ ran) (Step.leaveScope_ok inner after popped)

theorem called_step (conserved : Conserved Q) (arguments : List String) (body : Step)
    (kept : body.Keeps Q) : (Step.called arguments body).Keeps Q := by
  intro before after done
  obtain ⟨inner, ran, left⟩ := Step.andThen_ok (fun context => body (context.enterCall arguments))
    (fun after => .ok (after.leaveCall before.positional)) before after done
  cases left
  exact conserved.called before arguments inner (kept _ _ ran)

theorem callAssigning_step (conserved : Conserved Q) (names : List String)
    (assignments : List Step) (step : Step) (assigned : (Step.inOrder assignments).Keeps Q)
    (kept : step.Keeps Q) : (Walk.callAssigning names assignments step).Keeps Q := by
  intro before after done
  obtain ⟨inner, last, ran, stepped, rfl⟩ :=
    Walk.callAssigning_ok names assignments step before after done
  exact conserved.trans _ _ _ (assigned _ _ ran)
    (conserved.trans _ _ _ (kept _ _ stepped) (conserved.restore _ last))

theorem reads {α : Type} (run : Run) (read : Context → α) :
    Reads (fun steps : Run → Step => (steps run).Keeps Q) read := by
  intro next holds before after done
  exact holds (read before) before after done

theorem control (conserved : Conserved Q) (run : Run) :
    Control fun steps : Run → Step => (steps run).Keeps Q where
  skip := update id conserved.refl
  andThen := fun first second => conserved.andThen (first run) (second run)
  succeeded := reads run _
  stops := reads run _

theorem pieces (conserved : Conserved Q) (run : Run) (iterations : Run → Nat)
    (dispatch : Run → Dispatch)
    (dispatched : ∀ name arguments, (dispatch run name arguments).Keeps Q) :
    Walk.Pieces (fun steps : Run → Step => (steps run).Keeps Q) (fun _ => True) iterations
      dispatch where
  toControl := conserved.control run
  fitPart := fun _ _ _ _ => trivial
  word := fun node _ => reads run node.expand
  positional := reads run _
  known := fun _ => reads run _
  setVariable := fun name value => update _ fun context => conserved.setVariable context name value
  define := fun name body _ => update _ fun context => conserved.define context name body
  malformed := fun _ _ _ _ done => by cases done
  misnamed := fun name => update _ fun context => conserved.trans _ _ _
    (conserved.addErrors context [identifierMessage name]) (conserved.setExitCode _ 1)
  loop := fun untilTrue condition body checked repeated =>
    (conserved.control run).flow.rounds untilTrue (iterations run) (fun _ => condition run)
      (fun _ => body run) (update _ fun context => conserved.addErrors context _) checked repeated _
  inScope := fun step kept => conserved.inScope_step (step run) kept
  callAssigning := fun names assignments step assigned kept =>
    conserved.callAssigning_step names (assignments run) (step run) assigned kept
  dispatched := dispatched

-- Runs that start in one context read the same from it. A property of such runs holds of every step
-- they share that keeps to a conserved relation, and is carried along by the walk.
theorem lockstep {P : (Run → Step) → Prop} (conserved : Conserved Q) (control : Control P)
    (reads : ∀ {α : Type} (read : Context → α), Reads P read)
    (same : ∀ step : Step, step.Keeps Q → P fun _ => step)
    (pushed : ∀ context, Q context context.pushScope)
    (popped : ∀ before after, before.popScope = .ok after → Q before after)
    (iterations : Run → Nat) (dispatch : Run → Dispatch)
    (loop : ∀ (untilTrue : Bool) (condition body : Run → Step), P condition → P body →
      P fun run => Step.loop untilTrue (iterations run) (condition run) (body run))
    (dispatched : ∀ name arguments, P fun run => dispatch run name arguments) :
    Walk.Pieces P (fun _ => True) iterations dispatch := by
  have alone := conserved.pieces () (fun _ => 0) (fun _ _ _ => Step.skip)
    fun _ _ => update id conserved.refl
  exact {
    toControl := control
    fitPart := fun _ _ _ _ => trivial
    word := fun _ _ => reads _
    positional := reads _
    known := fun _ => reads _
    setVariable := fun name value => same _ (alone.setVariable name value)
    define := fun name body _ => same _ (alone.define name body trivial)
    malformed := fun node missing => same _ (alone.malformed node missing)
    misnamed := fun name => same _ (alone.misnamed name)
    loop := loop
    inScope := control.inScope (same _ (update _ pushed))
      (same _ fun before after done => popped before after (Step.leaveScope_ok before after done))
    callAssigning := fun names => Walk.callAssigning_of_control control names (reads _)
      fun bindings => same _ (update _ (conserved.restore bindings))
    dispatched := dispatched }

theorem handle (shell : Shell)
    (handled : ∀ name arguments before after,
      shell.registry.run shell.host name arguments before = .ok after → Q before after)
    (name : String) (arguments : List String) : (Walk.handle shell name arguments).Keeps Q :=
  fun before after done => handled name arguments before after
    (Walk.handle_ok shell name arguments before after done)

theorem dispatch (shell : Shell) (call : Calling)
    (handled : ∀ name arguments, (Walk.handle shell name arguments).Keeps Q)
    (calling : ∀ name body arguments, (call name body arguments).Keeps Q) (name : String)
    (arguments : List String) : (Walk.dispatch shell call name arguments).Keeps Q :=
  Walk.dispatch_of_reads (fun _ : Unit => shell) (fun _ => call) name arguments (reads () _)
    (fun body => calling name body arguments) (handled name arguments)

theorem refuse (conserved : Conserved Q) (limits : Limits) (name : String) (body : Node)
    (arguments : List String) : (Walk.refuse limits name body arguments).Keeps Q :=
  update _ fun context => conserved.trans _ _ _ (conserved.addErrors context _)
    (conserved.setExitCode _ 1)

theorem call (conserved : Conserved Q) (limits : Limits) (run : Node → Step)
    (kept : ∀ body, (run body).Keeps Q) (name : String) (body : Node) (arguments : List String) :
    (Walk.call limits run name body arguments).Keeps Q :=
  Walk.call_of_reads limits (fun _ : Unit => run) name body arguments (reads () _)
    (conserved.refuse limits name body arguments) (conserved.called_step arguments _ (kept body))

theorem bodies (shell : Shell) (room : Nat)
    (inner : ∀ fewer, room = fewer + 1 → ∀ body, (shell.within fewer body).Keeps Q) (body : Node) :
    (Walk.bodies shell room body).Keeps Q := by
  cases room with
  | zero => exact fun _ _ done => by cases done
  | succ room => exact inner room rfl body

theorem within (conserved : Conserved Q) (shell : Shell)
    (handled : ∀ name arguments, (Walk.handle shell name arguments).Keeps Q) (room : Nat)
    (node : Node) : (shell.within room node).Keeps Q := by
  induction room using Nat.strongRecOn generalizing node with
  | ind room ih =>
      have called := conserved.call shell.limits (Walk.bodies shell room)
        (bodies shell room fun fewer same => ih fewer (by omega))
      rw [Walk.within_eq]
      exact Walk.node_of_pieces (fun _ : Unit => shell) (fun _ => Walk.calling shell room)
        (conserved.pieces () _ _ (dispatch shell _ handled called)) node trivial

end Conserved

end ShellWalk
