import ShellWalk.Proofs.Changes
import ShellWalk.Proofs.Frame

set_option autoImplicit false

namespace ShellWalk

-- Another way to tell the same run. What is logged later comes behind what is told differently.
structure Retelling where
  output : List String → List String
  errors : List String → List String
  mode : Mode → Mode
  terminal : String → String
  output_append : ∀ logged lines, output (logged ++ lines) = output logged ++ lines
  errors_append : ∀ logged lines, errors (logged ++ lines) = errors logged ++ lines

namespace Retelling

def context (retelling : Retelling) (context : Context) : Context :=
  { context with
    output := retelling.output context.output
    errors := retelling.errors context.errors
    mode := retelling.mode context.mode
    terminal := retelling.terminal context.terminal }

def outcome (retelling : Retelling) : Outcome → Outcome
  | .ok after => .ok (retelling.context after)
  | .error halt => .error { halt with terminal := retelling.terminal halt.terminal }

def after (output errors : List String) : Retelling where
  output := (output ++ ·)
  errors := (errors ++ ·)
  mode := id
  terminal := id
  output_append := fun logged lines => (List.append_assoc output logged lines).symm
  errors_append := fun logged lines => (List.append_assoc errors logged lines).symm

theorem context_addErrors (retelling : Retelling) (context : Context) (lines : List String) :
    (retelling.context context).addErrors lines = retelling.context (context.addErrors lines) := by
  simp only [Retelling.context, Context.addErrors, retelling.errors_append]

theorem context_apply (retelling : Retelling) (completion : Completion) (context : Context) :
    completion.apply (retelling.context context) =
      retelling.context (completion.apply context) := by
  simp only [Retelling.context, Completion.apply, Context.addOutput, Context.addErrors,
    Context.setExitCode, retelling.output_append, retelling.errors_append]

end Retelling

structure Retold (retelling : Retelling) (mode : Mode) (steps : Bool → Step) : Prop where
  kept : ∀ before after, before.mode = mode → steps false before = .ok after → after.mode = mode
  same : ∀ before, before.mode = mode →
    steps true (retelling.context before) = retelling.outcome (steps false before)

namespace Retold

variable {retelling : Retelling} {mode : Mode}

theorem update (change : Context → Context)
    (level : ∀ context, (change context).mode = context.mode)
    (blind : ∀ context, change (retelling.context context) = retelling.context (change context)) :
    Retold retelling mode fun _ => Step.update change := by
  constructor
  · intro before after here done
    cases done
    rw [level, here]
  · intro before _
    exact congrArg Except.ok (blind before)

theorem reads {α : Type} (read : Context → α)
    (same : ∀ context, read (retelling.context context) = read context) :
    Reads (Retold retelling mode) read := by
  intro next holds
  constructor
  · intro before
    exact (holds (read before)).kept before
  · intro before here
    simp only [same before]
    exact (holds (read before)).same before here

theorem andThen (first second : Bool → Step) (here : Retold retelling mode first)
    (later : Retold retelling mode second) :
    Retold retelling mode fun run => (first run).andThen (second run) := by
  constructor
  · intro before after level done
    obtain ⟨between, ran, rest⟩ := Step.andThen_ok _ _ before after done
    exact later.kept between after (here.kept before between level ran) rest
  · intro before level
    have moved := here.same before level
    cases ran : first false before with
    | error halt =>
        rw [ran] at moved
        rw [Step.andThen_of_error _ _ _ _ ran, Step.andThen_of_error _ _ _ _ moved]
        rfl
    | ok between =>
        rw [ran] at moved
        rw [Step.andThen_of_ok _ _ _ _ ran, Step.andThen_of_ok _ _ _ _ moved]
        exact later.same between (here.kept before between level ran)

theorem control : Control (Retold retelling mode) where
  skip := update id (fun _ => rfl) fun _ => rfl
  andThen := andThen
  succeeded := reads _ fun _ => rfl
  stops := reads _ fun _ => rfl

theorem leaveScope : Retold retelling mode fun _ => Step.leaveScope := by
  constructor
  · intro before after level done
    rw [Context.popScope_ok before after (Step.leaveScope_ok before after done)]
    exact level
  · intro before _
    simp only [Step.leaveScope, Context.popScope, Retelling.context]
    cases before.scopes.pop? <;> rfl

theorem changes : Changes (Retold retelling mode) fun _ => True where
  toControl := control
  closed := fun _ _ _ _ => trivial
  expand := fun _ => reads _ fun _ => rfl
  positional := reads _ fun _ => rfl
  callDepth := reads _ fun _ => rfl
  function := fun _ => reads _ fun _ => rfl
  saved := fun _ => reads _ fun _ => rfl
  setVariable := fun _ _ => update _ (fun _ => rfl) fun _ => rfl
  unsetVariable := fun _ => update _ (fun _ => rfl) fun _ => rfl
  define := fun _ _ _ _ => update _ (fun _ => rfl) fun _ => rfl
  reported := fun lines => update _ (fun _ => rfl) fun context =>
    retelling.context_addErrors context lines
  failed := fun lines => update _ (fun _ => rfl) fun context =>
    congrArg (·.setExitCode 1) (retelling.context_addErrors context lines)
  pushScope := update _ (fun _ => rfl) fun _ => rfl
  leaveScope := leaveScope
  enterCall := fun _ => update _ (fun _ => rfl) fun _ => rfl
  leaveCall := fun _ => update _ (fun _ => rfl) fun _ => rfl
  faulty := fun _ => ⟨fun _ _ _ done => (by cases done), fun _ _ => rfl⟩

end Retold

structure Retelling.Fits (retelling : Retelling) (host : Bool → Host) (mode : Mode) : Prop where
  files : (host true).fileTest (retelling.mode mode) = (host false).fileTest mode
  write : ∀ context text, context.mode = mode →
    (retelling.context context).write text = retelling.context (context.write text)
  fallback : ∀ name arguments context, context.mode = mode →
    Registry.fallback (host true) name arguments (retelling.context context) =
      retelling.context (Registry.fallback (host false) name arguments context)

namespace Retelling.Fits

variable {retelling : Retelling} {host : Bool → Host} {mode : Mode}

theorem run (fits : retelling.Fits host mode) (name : String) (arguments : List String)
    (context : Context) (level : context.mode = mode) :
    Registry.standard.run (host true) name arguments (retelling.context context) =
      (Registry.standard.run (host false) name arguments context).map retelling.context := by
  unfold Registry.run
  cases found : Registry.standard.handlers.get? name with
  | none => exact congrArg Except.ok (fits.fallback name arguments context level)
  | some handler =>
      obtain ⟨completion, text, finishes, _⟩ := Registry.standard_regular name handler found
      have seen : (host true).fileTest (retelling.context context).mode =
          (host false).fileTest context.mode := by
        rw [level, ← fits.files, ← level]
        rfl
      simp only [finishes, seen, fits.write context _ level, retelling.context_apply]
      rfl

theorem handle (fits : retelling.Fits host mode) (limits : Limits) (name : String)
    (arguments : List String) :
    Retold retelling mode fun run => Walk.handle ⟨host run, .standard, limits⟩ name arguments := by
  constructor
  · intro before after level done
    have framed := Walk.handle_framed _ (Registry.standard_wellBehaved (host false)) name arguments
      before after done
    exact framed.mode.trans level
  · intro before level
    simp only [Walk.handle, fits.run name arguments before level]
    cases Registry.standard.run (host false) name arguments before <;> rfl

theorem walk (fits : retelling.Fits host mode) (limits : Limits) (node : Node) (context : Context)
    (level : context.mode = mode) :
    Shell.walk ⟨host true, .standard, limits⟩ node (retelling.context context) =
      retelling.outcome (Shell.walk ⟨host false, .standard, limits⟩ node context) := by
  have walked := Retold.changes.within_of_handle host (fun _ => .standard) limits
    (fits.handle limits) limits.recursion node
  exact walked.same context level

end Retelling.Fits

theorem Retelling.after_fits (output errors : List String) (host : Host) (mode : Mode) :
    (after output errors).Fits (fun _ => host) mode where
  files := rfl
  write := by
    intro context text _
    unfold Context.write
    by_cases real : context.mode = .real
    · rw [if_pos real, if_pos (show ((after output errors).context context).mode = .real from real)]
      rfl
    · rw [if_neg real, if_neg (show ((after output errors).context context).mode ≠ .real from real)]
  fallback := fun _ _ context _ => (after output errors).context_apply _ context

theorem logs_write_only (host : Host) (limits : Limits) (node : Node) (context : Context)
    (output errors : List String) :
    Shell.walk ⟨host, .standard, limits⟩ node
        { context with output := output, errors := errors } =
      (Shell.walk ⟨host, .standard, limits⟩ node { context with output := [], errors := [] }).map
        fun last => { last with output := output ++ last.output, errors := errors ++ last.errors } := by
  have walked := (Retelling.after_fits output errors host context.mode).walk limits node
    { context with output := [], errors := [] } rfl
  have start : (Retelling.after output errors).context { context with output := [], errors := [] } =
      { context with output := output, errors := errors } := by
    simp only [Retelling.context, Retelling.after, List.append_nil, id]
  rw [← start, walked]
  cases Shell.walk ⟨host, .standard, limits⟩ node { context with output := [], errors := [] } <;> rfl

end ShellWalk
