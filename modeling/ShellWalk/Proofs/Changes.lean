import ShellWalk.Proofs.Walk

set_option autoImplicit false

namespace ShellWalk

variable {Run : Type} {P : (Run → Step) → Prop} {fit : Node → Prop}

structure Changes (P : (Run → Step) → Prop) (fit : Node → Prop) : Prop extends Control P where
  closed : ∀ whole part : Node, fit whole → part ∈ whole.executed → fit part
  expand : ∀ node : Node, Reads P node.expand
  positional : Reads P Context.positional
  callDepth : Reads P Context.callDepth
  function : ∀ name, Reads P fun context => context.functions.get? name
  saved : ∀ names, Reads P (Step.saved names)
  setVariable : ∀ name value, P fun _ => Step.update (·.setVariable name value)
  unsetVariable : ∀ name, P fun _ => Step.update (·.unsetVariable name)
  define : ∀ source name body, fit (.function source (some name) (some body)) →
    P fun _ => Step.update (·.define name.text body)
  reported : ∀ lines, P fun _ => Step.update (·.addErrors lines)
  failed : ∀ lines, P fun _ => Step.update fun context => (context.addErrors lines).setExitCode 1
  pushScope : P fun _ => Step.update Context.pushScope
  leaveScope : P fun _ => Step.leaveScope
  enterCall : ∀ arguments, P fun _ => Step.update (·.enterCall arguments)
  leaveCall : ∀ parameters, P fun _ => Step.update (·.leaveCall parameters)
  faulty : ∀ fault, P fun _ context => .error ⟨fault, context.terminal⟩

namespace Changes

theorem restore (changes : Changes P fit) (bindings : List (String × Option String)) :
    P fun _ => Step.update (Step.restore bindings) := by
  induction bindings with
  | nil => exact changes.skip
  | cons binding rest ih =>
      rcases binding with ⟨name, value⟩
      have last : P fun _ => Step.update (Step.restoreBinding (name, value)) := by
        cases value with
        | none => exact changes.unsetVariable name
        | some value => exact changes.setVariable name value
      exact changes.andThen _ _ ih last

theorem course (changes : Changes P fit) (iterations : Nat) (dispatch : Run → Dispatch)
    (dispatched : ∀ source name arguments assignments,
      fit (.command source (some name) arguments assignments) →
      ∀ texts, P fun run => dispatch run name.text texts) :
    Walk.Course P P fit (fun _ => iterations) dispatch where
  toFlow := changes.toControl.flow
  word := fun _ _ node _ => changes.expand node
  positional := changes.positional
  known := fun name => (changes.function name).map Option.isSome
  bind := fun _ binder _ _ _ => changes.setVariable binder.text
  setVariable := fun _ name _ _ => changes.setVariable name.text
  define := changes.define
  malformed := fun node missing _ _ => changes.faulty (.malformed (.at node missing))
  misnamed := fun name => changes.failed [identifierMessage name]
  loop := fun untilTrue condition body checked repeated =>
    changes.toControl.flow.rounds untilTrue iterations condition body (changes.reported _) checked
      repeated iterations
  inScope := changes.toControl.inScope changes.pushScope changes.leaveScope
  callAssigning := fun names =>
    Walk.callAssigning_of_control changes.toControl names (changes.saved names) changes.restore
  dispatched := dispatched

theorem condition (changes : Changes P fit) (whole : Node) (condition : List Node)
    (checked : condition ∈ whole.conditions) (run : Run → Node → Step)
    (inner : ∀ part ∈ whole.executed, P fun which => run which part) :
    P fun which => Step.sequence (condition.map (run which)) :=
  changes.toControl.flow.sequence condition run fun part member =>
    inner part (Node.executed_conditions whole part condition checked member)

theorem prefixed (changes : Changes P fit) (whole : Node) (run : Run → Node → Step)
    (inner : ∀ part ∈ whole.executed, P fun which => run which part) :
    P fun which => Step.inOrder (whole.prefixed.map (run which)) :=
  changes.toControl.inOrder whole.prefixed run fun part member =>
    inner part (Node.executed_prefixed whole part member)

theorem nodeWith (changes : Changes P fit) (iterations : Nat) (dispatch : Run → Dispatch)
    (dispatched : ∀ source name arguments assignments,
      fit (.command source (some name) arguments assignments) →
      ∀ texts, P fun run => dispatch run name.text texts)
    (run : Run → Node → Step) (whole : Node) (covered : fit whole)
    (inner : ∀ part ∈ whole.executed, P fun which => run which part) :
    P fun which => Walk.nodeWith iterations (dispatch which) (run which) whole := by
  refine (changes.course iterations dispatch dispatched).nodeWith whole covered run ?_ ?_ inner
  · intro condition checked
    exact changes.condition whole condition checked run inner
  · exact changes.prefixed whole run inner

theorem node (changes : Changes P fit) (host : Run → Host) (registry : Run → Registry)
    (limits : Limits) (call : Run → Calling)
    (dispatched : ∀ source name arguments assignments,
      fit (.command source (some name) arguments assignments) → ∀ texts,
      P fun run => Walk.dispatch ⟨host run, registry run, limits⟩ (call run) name.text texts)
    (whole : Node) (covered : fit whole) :
    P fun run => Walk.node ⟨host run, registry run, limits⟩ (call run) whole := by
  have course := changes.course limits.iterations
    (fun run => Walk.dispatch ⟨host run, registry run, limits⟩ (call run)) dispatched
  refine Walk.node_of_course (fun run => ⟨host run, registry run, limits⟩) call course
    changes.closed ?_ ?_ whole covered
  · intro whole _ inner condition checked
    exact changes.condition whole condition checked _ inner
  · intro whole _ inner
    exact changes.prefixed whole _ inner

theorem called (changes : Changes P fit) (arguments : List String) (body : Run → Step)
    (inner : P body) : P fun run => Step.called arguments (body run) :=
  changes.toControl.called changes.positional arguments (changes.enterCall arguments)
    changes.leaveCall body inner

theorem call (changes : Changes P fit) (limits : Limits) (run : Run → Node → Step) (name : String)
    (body : Node) (arguments : List String) (inner : P fun which => run which body) :
    P fun which => Walk.call limits (run which) name body arguments :=
  Walk.call_of_reads limits run name body arguments changes.callDepth
    (changes.failed [nestingMessage name limits.recursion]) (changes.called arguments _ inner)

theorem within (changes : Changes P fit) (host : Run → Host) (registry : Run → Registry)
    (limits : Limits)
    (dispatched : ∀ call : Run → Calling,
      (∀ name body arguments, fit body → P fun run => call run name body arguments) →
      ∀ source name arguments assignments,
        fit (.command source (some name) arguments assignments) → ∀ texts,
        P fun run => Walk.dispatch ⟨host run, registry run, limits⟩ (call run) name.text texts)
    (room : Nat) (whole : Node) (covered : fit whole) :
    P fun run => Shell.within ⟨host run, registry run, limits⟩ room whole := by
  induction room generalizing whole with
  | zero =>
      refine changes.node host registry limits _ (dispatched _ ?_) whole covered
      intro name body arguments _
      exact changes.call limits _ name body arguments (changes.faulty (.panicked Walk.overflowMessage))
  | succ room ih =>
      refine changes.node host registry limits _ (dispatched _ ?_) whole covered
      intro name body arguments fits
      exact changes.call limits _ name body arguments (ih body fits)

theorem within_of_handle (changes : Changes P fun _ => True) (host : Run → Host)
    (registry : Run → Registry) (limits : Limits)
    (handled : ∀ name arguments,
      P fun run => Walk.handle ⟨host run, registry run, limits⟩ name arguments)
    (room : Nat) (whole : Node) :
    P fun run => Shell.within ⟨host run, registry run, limits⟩ room whole := by
  refine changes.within host registry limits ?_ room whole trivial
  intro call calls source name arguments assignments _ texts
  exact Walk.dispatch_of_reads _ call name.text texts (changes.function name.text)
    (fun body => calls name.text body texts trivial) (handled name.text texts)

end Changes

-- Two runs that do the same from every context of an invariant, and never leave it.
structure InStep (inv : Context → Prop) (steps : Bool → Step) : Prop where
  same : ∀ before, inv before → steps true before = steps false before
  kept : ∀ before after, inv before → steps false before = .ok after → inv after

namespace InStep

variable {inv : Context → Prop}

theorem shared (step : Step)
    (kept : ∀ before after, inv before → step before = .ok after → inv after) :
    InStep inv fun _ => step :=
  ⟨fun _ _ => rfl, kept⟩

theorem update (change : Context → Context) (kept : ∀ context, inv context → inv (change context)) :
    InStep inv fun _ => Step.update change := by
  refine shared _ fun before after here done => ?_
  cases done
  exact kept before here

theorem reads {α : Type} (read : Context → α) : Reads (InStep inv) read := by
  intro next holds
  exact ⟨fun before => (holds (read before)).same before,
    fun before => (holds (read before)).kept before⟩

theorem pointwise (steps : Bool → Step)
    (like : ∀ before, inv before →
      ∃ others, InStep inv others ∧ ∀ run, steps run before = others run before) :
    InStep inv steps := by
  constructor
  · intro before inside
    obtain ⟨others, inStep, alike⟩ := like before inside
    rw [alike, alike]
    exact inStep.same before inside
  · intro before after inside done
    obtain ⟨others, inStep, alike⟩ := like before inside
    rw [alike] at done
    exact inStep.kept before after inside done

theorem andThen (first second : Bool → Step) (here : InStep inv first) (later : InStep inv second) :
    InStep inv fun run => (first run).andThen (second run) := by
  constructor
  · intro before inside
    have moved := here.same before inside
    cases ran : first false before with
    | error halt =>
        rw [ran] at moved
        rw [Step.andThen_of_error _ _ _ _ ran, Step.andThen_of_error _ _ _ _ moved]
    | ok between =>
        rw [ran] at moved
        rw [Step.andThen_of_ok _ _ _ _ ran, Step.andThen_of_ok _ _ _ _ moved]
        exact later.same between (here.kept before between inside ran)
  · intro before after inside done
    obtain ⟨between, ran, rest⟩ := Step.andThen_ok _ _ before after done
    exact later.kept between after (here.kept before between inside ran) rest

theorem control : Control (InStep inv) where
  skip := update id fun _ here => here
  andThen := andThen
  succeeded := reads _
  stops := reads _

-- An invariant that is blind to variables and parameters has to be checked against definitions and
-- reports only.
theorem changes (closed : ∀ whole part : Node, fit whole → part ∈ whole.executed → fit part)
    (bindings : ∀ context scopes, inv context → inv { context with scopes := scopes })
    (parameters : ∀ context positional callDepth, inv context →
      inv { context with positional := positional, callDepth := callDepth })
    (define : ∀ source name body, fit (.function source (some name) (some body)) →
      ∀ context, inv context → inv (context.define name.text body))
    (reported : ∀ context lines, inv context → inv (context.addErrors lines))
    (failed : ∀ context lines, inv context → inv ((context.addErrors lines).setExitCode 1)) :
    Changes (InStep inv) fit where
  toControl := control
  closed := closed
  expand := fun _ => reads _
  positional := reads _
  callDepth := reads _
  function := fun _ => reads _
  saved := fun _ => reads _
  setVariable := fun _ _ => update _ fun context => bindings context _
  unsetVariable := fun _ => update _ fun context => bindings context _
  define := fun source name body covered => update _ (define source name body covered)
  reported := fun lines => update _ fun context => reported context lines
  failed := fun lines => update _ fun context => failed context lines
  pushScope := update _ fun context => bindings context _
  leaveScope := by
    refine shared _ fun before after here done => ?_
    rw [Context.popScope_ok before after (Step.leaveScope_ok before after done)]
    exact bindings before after.scopes here
  enterCall := fun _ => update _ fun context => parameters context _ _
  leaveCall := fun _ => update _ fun context => parameters context _ _
  faulty := fun _ => shared _ fun _ _ _ done => by cases done

end InStep

end ShellWalk
