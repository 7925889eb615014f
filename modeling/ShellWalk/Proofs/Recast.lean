import ShellWalk.Proofs.Frame

set_option autoImplicit false

namespace ShellWalk

def Context.recast (flag : Bool → Bool) (table : Table Node → Table Node) (context : Context) :
    Context :=
  { context with strict := flag context.strict, functions := table context.functions }

-- The run `true` starts in the context recast, and the run `false` in the context itself, of which
-- strictness and functions must be of a certain domain.
structure Recast (flag : Bool → Bool) (table : Table Node → Table Node)
    (domain : Bool → Table Node → Prop) (steps : Bool → Step) : Prop where
  kept : ∀ before after, domain before.strict before.functions →
    steps false before = .ok after → domain after.strict after.functions
  same : ∀ before, domain before.strict before.functions →
    steps true (before.recast flag table) = (steps false before).map (Context.recast flag table)

variable {flag : Bool → Bool} {table : Table Node → Table Node}
  {domain : Bool → Table Node → Prop}

namespace Context

theorem write_recast (context : Context) (text : String) :
    (context.recast flag table).write text = (context.write text).recast flag table := by
  unfold write recast
  by_cases real : context.mode = .real
  · simp only [if_pos real]
  · simp only [if_neg real]

theorem popScope_recast (context : Context) :
    (context.recast flag table).popScope = context.popScope.map (recast flag table) := by
  unfold popScope recast
  cases context.scopes.pop? <;> rfl

theorem restore_recast (bindings : List (String × Option String)) (context : Context) :
    Step.restore bindings (context.recast flag table) =
      (Step.restore bindings context).recast flag table := by
  induction bindings with
  | nil => rfl
  | cons binding rest ih =>
      rcases binding with ⟨name, value⟩
      change Step.restoreBinding (name, value) (Step.restore rest (context.recast flag table)) = _
      rw [ih]
      cases value <;> rfl

theorem restore_domain (bindings : List (String × Option String)) (context : Context) :
    (Step.restore bindings context).strict = context.strict ∧
      (Step.restore bindings context).functions = context.functions := by
  rw [restore_fields]
  exact ⟨rfl, rfl⟩

end Context

theorem Registry.standard_recast (host : Host) (name : String) (arguments : List String)
    (context : Context) :
    standard.run host name arguments (context.recast flag table) =
      (standard.run host name arguments context).map (Context.recast flag table) := by
  unfold run
  cases found : standard.handlers.get? name with
  | none => rfl
  | some handler =>
      obtain ⟨completion, text, finishes⟩ := standard_plain name handler found
      simp only [finishes, Context.write_recast]
      rfl

namespace Recast

theorem update (change : Context → Context)
    (strict : ∀ context, (change context).strict = context.strict)
    (functions : ∀ context, (change context).functions = context.functions)
    (blind : ∀ context, change (context.recast flag table) = (change context).recast flag table) :
    Recast flag table domain fun _ => Step.update change := by
  constructor
  · intro before after inside done
    cases done
    rw [strict, functions]
    exact inside
  · intro before _
    exact congrArg Except.ok (blind before)

theorem skip : Recast flag table domain fun _ => Step.skip :=
  update id (fun _ => rfl) (fun _ => rfl) fun _ => rfl

theorem setVariable (name value : String) :
    Recast flag table domain fun _ => Step.update (·.setVariable name value) :=
  update _ (fun _ => rfl) (fun _ => rfl) fun _ => rfl

theorem faulty (fault : Fault) :
    Recast flag table domain fun _ context => .error ⟨fault, context.terminal⟩ :=
  ⟨fun _ _ _ done => (by cases done), fun _ _ => rfl⟩

theorem reads {α : Type} (read : Context → α)
    (same : ∀ context, domain context.strict context.functions →
      read (context.recast flag table) = read context) : Reads (Recast flag table domain) read := by
  intro next holds
  constructor
  · intro before
    exact (holds (read before)).kept before
  · intro before inside
    simp only [same before inside]
    exact (holds (read before)).same before inside

theorem andThen (first second : Bool → Step) (here : Recast flag table domain first)
    (later : Recast flag table domain second) :
    Recast flag table domain fun run => (first run).andThen (second run) := by
  constructor
  · intro before after inside done
    obtain ⟨between, ran, rest⟩ := Step.andThen_ok _ _ before after done
    exact later.kept between after (here.kept before between inside ran) rest
  · intro before inside
    have moved := here.same before inside
    cases ran : first false before with
    | error halt =>
        rw [ran] at moved
        rw [Step.andThen_of_error _ _ _ _ ran, Step.andThen_of_error _ _ _ halt moved]
        rfl
    | ok between =>
        rw [ran] at moved
        rw [Step.andThen_of_ok _ _ _ _ ran, Step.andThen_of_ok _ _ _ _ moved]
        exact later.same between (here.kept before between inside ran)

theorem leaveScope : Recast flag table domain fun _ => Step.leaveScope := by
  constructor
  · intro before after inside done
    rw [Context.popScope_ok before after (Step.leaveScope_ok before after done)]
    exact inside
  · intro before _
    simp only [Step.leaveScope, Context.popScope_recast]
    cases before.popScope <;> rfl

theorem inScope (step : Bool → Step) (inner : Recast flag table domain step) :
    Recast flag table domain fun run => Step.inScope (step run) :=
  andThen (fun _ => Step.update Context.pushScope) _
    (update _ (fun _ => rfl) (fun _ => rfl) fun _ => rfl) (andThen step _ inner leaveScope)

theorem called (arguments : List String) (body : Bool → Step)
    (inner : Recast flag table domain body) :
    Recast flag table domain fun run => Step.called arguments (body run) := by
  refine reads Context.positional (fun _ _ => rfl)
    (fun run parameters => (Step.update (·.enterCall arguments)).andThen
      ((body run).andThen (Step.update (·.leaveCall parameters)))) fun parameters => ?_
  exact andThen _ _ (update _ (fun _ => rfl) (fun _ => rfl) fun _ => rfl)
    (andThen body _ inner (update _ (fun _ => rfl) (fun _ => rfl) fun _ => rfl))

theorem callAssigning (names : List String) (assignments : Bool → List Step) (step : Bool → Step)
    (assigned : Recast flag table domain fun run => Step.inOrder (assignments run))
    (inner : Recast flag table domain step) :
    Recast flag table domain fun run => Walk.callAssigning names (assignments run) (step run) := by
  refine reads (Step.saved names) (fun _ _ => rfl)
    (fun run bindings => (Step.inOrder (assignments run)).andThen
      ((step run).andThen (Step.update (Step.restore bindings)))) fun bindings => ?_
  exact andThen _ _ assigned (andThen step _ inner (update _
    (fun context => (context.restore_domain bindings).1)
    (fun context => (context.restore_domain bindings).2)
    fun context => context.restore_recast bindings))

theorem handle (host : Host) (limits : Limits) (name : String) (arguments : List String) :
    Recast flag table domain fun _ => Walk.handle ⟨host, .standard, limits⟩ name arguments := by
  constructor
  · intro before after inside done
    have same := Registry.run_untouched _ _ (Registry.standard_wellBehaved host) name arguments
      before after (Walk.handle_ok _ name arguments before after done)
    simpa only [same.strict, same.functions] using inside
  · intro before _
    simp only [Walk.handle, Registry.standard_recast]
    cases Registry.standard.run host name arguments before <;> rfl

theorem call (limits : Limits) (run : Bool → Node → Step) (name : String) (body : Node)
    (arguments : List String) (inner : Recast flag table domain fun which => run which body) :
    Recast flag table domain fun which => Walk.call limits (run which) name body arguments :=
  Walk.call_of_reads limits run name body arguments (reads _ fun _ _ => rfl)
    (update _ (fun _ => rfl) (fun _ => rfl) fun _ => rfl) (called arguments _ inner)

end Recast

end ShellWalk
