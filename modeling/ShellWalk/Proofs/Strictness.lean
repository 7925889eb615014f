import ShellWalk.Proofs.Reading
import ShellWalk.Proofs.Recast
import ShellWalk.Proofs.Transparency

set_option autoImplicit false

namespace ShellWalk

namespace Node

def Defines (node : Node) (name : String) : Prop :=
  ∃ source word body, Inside (.function source (some word) body) node ∧ word.text = name

def Simple (defined : String → Prop) : Node → Prop
  | .command _ name _ _ => ∀ word, name = some word → ¬ defined word.text
  | _ => False

def SimplyChecked (defined : String → Prop) (node : Node) : Prop :=
  ∀ inner, Inside inner node → inner.condition.length ≤ 1 ∧
    ∀ check ∈ inner.condition, check.Simple defined

def Assigning (node : Node) : Prop :=
  ∀ inner, Inside inner node → ∀ part ∈ inner.prefixed, part.isAssignment = true

section Everywhere

variable {Q : Node → Prop}

@[simp] theorem forall_inside_leaf (kind : LeafKind) (source : Source) :
    (∀ inner, Inside inner (.leaf kind source) → Q inner) ↔ Q (.leaf kind source) := by
  rw [forall_inside_iff]
  simp [parts]

@[simp] theorem forall_inside_group (kind : GroupKind) (source : Source) (children : List Node) :
    (∀ inner, Inside inner (.group kind source children) → Q inner) ↔
      Q (.group kind source children) ∧
        ∀ child ∈ children, ∀ inner, Inside inner child → Q inner :=
  forall_inside_iff _

@[simp] theorem forall_inside_branch (kind : BranchKind) (source : Source)
    (condition children : List Node) :
    (∀ inner, Inside inner (.branch kind source condition children) → Q inner) ↔
      Q (.branch kind source condition children) ∧
        ∀ part ∈ condition ++ children, ∀ inner, Inside inner part → Q inner :=
  forall_inside_iff _

@[simp] theorem forall_inside_function (source : Source) (name body : Option Node) :
    (∀ inner, Inside inner (.function source name body) → Q inner) ↔
      Q (.function source name body) ∧
        ∀ part ∈ name.toList ++ body.toList, ∀ inner, Inside inner part → Q inner :=
  forall_inside_iff _

@[simp] theorem forall_inside_command (source : Source) (name : Option Node)
    (arguments assignments : List Node) :
    (∀ inner, Inside inner (.command source name arguments assignments) → Q inner) ↔
      Q (.command source name arguments assignments) ∧
        ∀ part ∈ name.toList ++ arguments ++ assignments, ∀ inner, Inside inner part → Q inner :=
  forall_inside_iff _

end Everywhere

-- What a node must be for its strict walk to be its lenient walk cut short. The names are those
-- that may come to be functions while the script runs.
structure Orderly (names : String → Prop) (node : Node) : Prop where
  checked : node.SimplyChecked names
  assigning : node.Assigning
  defined : ∀ name, node.Defines name → names name

theorem orderly_inside (names : String → Prop) (inner whole : Node) (inside : Inside inner whole)
    (orderly : whole.Orderly names) : inner.Orderly names where
  checked := fun node here => orderly.checked node (inside_trans node inner whole here inside)
  assigning := fun node here => orderly.assigning node (inside_trans node inner whole here inside)
  defined := fun name ⟨source, word, body, here, same⟩ =>
    orderly.defined name ⟨source, word, body, inside_trans _ inner whole here inside, same⟩

theorem orderly_executed (names : String → Prop) (whole part : Node)
    (orderly : whole.Orderly names) (member : part ∈ whole.executed) : part.Orderly names :=
  orderly_inside names part whole
    (beneath_inside part whole (beneath_executed part whole member)) orderly

theorem conditions_inside (whole : Node) (condition : List Node)
    (checked : condition ∈ whole.conditions) :
    ∃ inner, Inside inner whole ∧ inner.condition = condition := by
  cases whole with
  | branch kind source first children =>
      rcases List.mem_cons.mp checked with same | later
      · exact ⟨_, .self, same.symm⟩
      · obtain ⟨child, present, clause⟩ := List.mem_flatMap.mp later
        refine ⟨child, .part _ child (List.mem_append_right _ present) .self, ?_⟩
        fun_cases clauseConditions child with
        | case1 place condition' body => exact (List.mem_singleton.mp clause).symm
        | case2 child other =>
            rw [clauseConditions] at clause
            · cases clause
            · exact other
  | loop untilTrue source first body => exact ⟨_, .self, (List.mem_singleton.mp checked).symm⟩
  | _ => cases checked

end Node

namespace Tree

mutual

theorem toNode_assigning (tree : Tree) : tree.toNode.Assigning := by
  cases tree with
  | node kind source children fields =>
      rw [toNode]
      refine Node.inside_parts _ (nodeOf_prefixed kind source _ _) fun part member => ?_
      rcases nodeOf_parts kind source _ _ part member with child | ⟨name, filled⟩
      · exact toNodes_assigning children part child
      · obtain ⟨slot, present, here⟩ := Slots.many_mem _ name part filled
        exact slotsOf_assigning fields slot present part here

theorem toNodes_assigning (trees : List Tree) : ∀ node ∈ toNodes trees, node.Assigning := by
  cases trees with
  | nil => simp [toNodes]
  | cons tree rest =>
      intro node member
      rw [toNodes] at member
      rcases List.mem_cons.mp member with rfl | later
      · exact toNode_assigning tree
      · exact toNodes_assigning rest node later

theorem fieldNodes_assigning (field : Field) : ∀ node ∈ fieldNodes field, node.Assigning := by
  cases field with
  | one tree =>
      intro node member
      rw [fieldNodes] at member
      rw [List.mem_singleton.mp member]
      exact toNode_assigning tree
  | many trees =>
      rw [fieldNodes]
      exact toNodes_assigning trees
  | other value => simp [fieldNodes]

theorem slotsOf_assigning (fields : List (String × Field)) :
    ∀ slot ∈ slotsOf fields, ∀ node ∈ slot.2, node.Assigning := by
  cases fields with
  | nil => simp [slotsOf]
  | cons entry rest =>
      rcases entry with ⟨name, field⟩
      intro slot member
      rw [slotsOf] at member
      rcases List.mem_cons.mp member with rfl | later
      · exact fieldNodes_assigning field
      · exact slotsOf_assigning rest slot later

end

end Tree

namespace Context

theorem output_conserved : Conserved fun before after => before.output <+: after.output where
  refl := fun _ => List.prefix_rfl
  trans := fun _ _ _ first second => first.trans second
  setVariable := fun _ _ _ => List.prefix_rfl
  unsetVariable := fun _ _ => List.prefix_rfl
  define := fun _ _ _ => List.prefix_rfl
  addErrors := fun _ _ => List.prefix_rfl
  setExitCode := fun _ _ => List.prefix_rfl
  inScope := fun context after popped inner done => by
    rw [popScope_ok after popped done]
    exact inner
  called := fun _ _ _ inner => inner

theorem write_output (context : Context) (text : String) :
    (context.write text).output = context.output := by
  unfold write
  split <;> rfl

def Advanced (before after : Context) : Prop :=
  Framed before after ∧ before.output <+: after.output ∧ before.errors <+: after.errors

theorem advanced_conserved : Conserved Advanced :=
  framed_conserved.and (output_conserved.and errors_conserved)

def stricter (context : Context) : Context := context.recast (fun _ => true) id

def Abridged (full short : Context) : Prop :=
  short = full.stricter ∨
  short.stops = true ∧ short.output <+: full.output ∧ short.errors <+: full.errors

theorem abridged_change (change : Context → Context) (full short : Context)
    (abridged : Abridged full short)
    (blind : ∀ context : Context, change context.stricter = (change context).stricter)
    (stops : ∀ context, (change context).stops = context.stops)
    (output : ∀ context, (change context).output = context.output)
    (errors : ∀ context, (change context).errors = context.errors) :
    Abridged (change full) (change short) := by
  rcases abridged with same | ⟨stopped, printed, reported⟩
  · left
    rw [same, blind]
  · right
    rw [stops, output, output, errors, errors]
    exact ⟨stopped, printed, reported⟩

theorem abridged_advanced (full after short : Context) (stopped : short.stops = true)
    (abridged : Abridged full short) (advanced : Advanced full after) : Abridged after short := by
  right
  rcases abridged with same | ⟨_, printed, reported⟩
  · rw [same] at stopped ⊢
    exact ⟨stopped, advanced.2.1, advanced.2.2⟩
  · exact ⟨stopped, printed.trans advanced.2.1, reported.trans advanced.2.2⟩

end Context

theorem Registry.standard_output (host : Host) (name : String) (arguments : List String)
    (before after : Context) (done : standard.run host name arguments before = .ok after) :
    before.output <+: after.output := by
  obtain ⟨completion, text, applied⟩ := standard_applies host name arguments before
  rw [applied] at done
  cases done
  rw [← Context.write_output before text]
  exact List.prefix_append _ _

namespace Walk

def Lenient (names : String → Prop) (strict : Bool) (functions : Table Node) : Prop :=
  strict = false ∧ ∀ name body, functions.get? name = some body → names name ∧ body.Orderly names

-- A step that both runs see to its end, with the same outcome.
structure Firm (names : String → Prop) (step : Step) : Prop where
  advanced : step.Keeps Context.Advanced
  level : Recast (fun _ => true) id (Lenient names) fun _ => step

-- A step that the strict run may end early.
structure Abridges (names : String → Prop) (step : Step) : Prop where
  advanced : step.Keeps Context.Advanced
  cut : ∀ full after, Lenient names full.strict full.functions → step full = .ok after →
    Lenient names after.strict after.functions ∧
      ∃ short, step full.stricter = .ok short ∧ Context.Abridged after short

section Abridging

variable {names : String → Prop}

theorem Firm.abridges (step : Step) (firm : Firm names step) : Abridges names step := by
  refine ⟨firm.advanced, fun full after inside done => ⟨firm.level.kept full after inside done, ?_⟩⟩
  have moved := firm.level.same full inside
  rw [done] at moved
  exact ⟨_, moved, .inl rfl⟩

theorem firm_andThen (first second : Step) (here : Firm names first) (later : Firm names second) :
    Firm names (first.andThen second) :=
  ⟨Context.advanced_conserved.andThen _ _ here.advanced later.advanced,
    Recast.andThen (fun _ => first) (fun _ => second) here.level later.level⟩

theorem firm_reads {α : Type} (read : Context → α)
    (same : ∀ context : Context, read context.stricter = read context) :
    Reads (fun steps : Unit → Step => Firm names (steps ())) read := by
  intro next holds
  exact ⟨Conserved.reads () read next fun value => (holds value).advanced,
    Recast.reads read (fun context _ => same context) (fun _ => next ()) fun value =>
      (holds value).level⟩

theorem firm_update (change : Context → Context)
    (advanced : ∀ context, Context.Advanced context (change context))
    (functions : ∀ context, (change context).functions = context.functions)
    (blind : ∀ context : Context, change context.stricter = (change context).stricter) :
    Firm names (Step.update change) :=
  ⟨Conserved.update change advanced,
    Recast.update change (fun context => (advanced context).1.strict) functions blind⟩

theorem firm_skip : Firm names Step.skip :=
  firm_update id Context.advanced_conserved.refl (fun _ => rfl) fun _ => rfl

theorem firm_setVariable (name value : String) :
    Firm names (Step.update (·.setVariable name value)) :=
  firm_update _ (fun context => Context.advanced_conserved.setVariable context name value)
    (fun _ => rfl) fun _ => rfl

theorem firm_faulty (fault : Fault) :
    Firm names fun context => .error ⟨fault, context.terminal⟩ :=
  ⟨fun _ _ done => (by cases done), Recast.faulty fault⟩

theorem firm_inScope (step : Step) (inner : Firm names step) : Firm names (Step.inScope step) :=
  ⟨Context.advanced_conserved.inScope_step step inner.advanced,
    Recast.inScope (fun _ => step) inner.level⟩

theorem firm_callAssigning (saved : List String) (assignments : List Step) (step : Step)
    (assigned : Firm names (Step.inOrder assignments)) (inner : Firm names step) :
    Firm names (callAssigning saved assignments step) :=
  ⟨Context.advanced_conserved.callAssigning_step saved assignments step assigned.advanced
      inner.advanced,
    Recast.callAssigning saved (fun _ => assignments) (fun _ => step) assigned.level inner.level⟩

theorem abridges_reads {α : Type} (read : Context → α)
    (same : ∀ context : Context, read context.stricter = read context) :
    Reads (fun steps : Unit → Step => Abridges names (steps ())) read := by
  intro next holds
  refine ⟨Conserved.reads () read next fun value => (holds value).advanced, ?_⟩
  intro full after inside done
  simp only [same]
  exact (holds (read full)).cut full after inside done

theorem abridges_onward (first second : Step) (here : Firm names first)
    (later : Abridges names second) : Abridges names (first.andThen second) := by
  refine ⟨Context.advanced_conserved.andThen _ _ here.advanced later.advanced, ?_⟩
  intro full after inside done
  obtain ⟨between, ran, rest⟩ := Step.andThen_ok first second full after done
  have moved := here.level.same full inside
  rw [ran] at moved
  rw [Step.andThen_of_ok first second full.stricter _ moved]
  exact later.cut between after (here.level.kept full between inside ran) rest

-- The stop of a strict run travels outwards through here: whatever a member of a sequence or the
-- body of a loop has come to, nothing runs after a failure.
theorem abridges_next (first rest : Step) (here : Abridges names first)
    (later : Abridges names rest) : Abridges names (first.andThen fun after =>
      if after.stops then .ok after else rest after) := by
  constructor
  · exact (Context.advanced_conserved.control ()).unlessStopped (fun _ => first) (fun _ => rest)
      here.advanced later.advanced
  · intro full after inside done
    obtain ⟨between, ran, onward⟩ := Step.andThen_ok first _ full after done
    obtain ⟨within, short, shortly, abridged⟩ := here.cut full between inside ran
    have goes : between.stops = false := by simp only [Context.stops, within.1, Bool.false_and]
    simp only [goes, Bool.false_eq_true, if_false] at onward
    rw [Step.andThen_of_ok first _ _ _ shortly]
    obtain ⟨last, continued⟩ := later.cut between after within onward
    refine ⟨last, ?_⟩
    by_cases stopped : short.stops = true
    · simp only [if_pos stopped]
      exact ⟨short, rfl, Context.abridged_advanced between after short stopped abridged
        (later.advanced between after onward)⟩
    · simp only [if_neg stopped]
      rcases abridged with same | ⟨stops, _⟩
      · rw [same]
        exact continued
      · exact absurd stops stopped

theorem abridges_flow : Flow (fun steps : Unit → Step => Firm names (steps ()))
    (fun steps : Unit → Step => Abridges names (steps ())) where
  skip := firm_skip.abridges
  onward := fun first second => abridges_onward (first ()) (second ())
  next := fun first rest => abridges_next (first ()) (rest ())
  succeeded := abridges_reads _ fun _ => rfl

theorem abridges_around (enter : Context → Context) (step : Step) (leave : Context → Step)
    (undo : Context → Context → Context) (inner : Abridges names step)
    (advanced : Step.Keeps Context.Advanced fun context =>
      step.andThen (leave context) (enter context))
    (entered : ∀ context : Context, enter context.stricter = (enter context).stricter ∧
      (enter context).strict = context.strict ∧ (enter context).functions = context.functions)
    (left : ∀ context after, Context.Framed (enter context) after →
      leave context after = .ok (undo context after))
    (blind : ∀ start context : Context, undo start.stricter context = undo start context ∧
      undo start context.stricter = (undo start context).stricter)
    (quiet : ∀ start context : Context, (undo start context).stops = context.stops ∧
      (undo start context).output = context.output ∧ (undo start context).errors = context.errors ∧
      (undo start context).strict = context.strict ∧
      (undo start context).functions = context.functions) :
    Abridges names fun context => step.andThen (leave context) (enter context) := by
  refine ⟨advanced, ?_⟩
  intro full after inside done
  obtain ⟨last, ran, undone⟩ := Step.andThen_ok step (leave full) (enter full) after done
  rw [left full last (inner.advanced _ _ ran).1] at undone
  cases undone
  obtain ⟨moved, strict, functions⟩ := entered full
  obtain ⟨within, short, shortly, abridged⟩ :=
    inner.cut (enter full) last (by rw [strict, functions]; exact inside) ran
  obtain ⟨_, _, _, sameStrict, sameFunctions⟩ := quiet full last
  refine ⟨by rw [sameStrict, sameFunctions]; exact within, undo full short, ?_, ?_⟩
  · have framed := (inner.advanced _ _ shortly).1
    rw [← moved] at framed shortly
    rw [Step.andThen_of_ok _ _ _ _ shortly, left full.stricter short framed, (blind full short).1]
  · exact Context.abridged_change (undo full) last short abridged
      (fun context => (blind full context).2) (fun context => (quiet full context).1)
      (fun context => (quiet full context).2.1) fun context => (quiet full context).2.2.1

theorem abridges_inScope (step : Step) (inner : Abridges names step) :
    Abridges names (Step.inScope step) := by
  refine abridges_around Context.pushScope step (fun _ => Step.leaveScope)
    (fun start after => { after with scopes := start.scopes }) inner
    (Context.advanced_conserved.inScope_step step inner.advanced) (fun _ => ⟨rfl, rfl, rfl⟩) ?_
    (fun _ _ => ⟨rfl, rfl⟩) fun _ _ => ⟨rfl, rfl, rfl, rfl, rfl⟩
  intro context after framed
  simp only [Step.leaveScope, Context.popScope_framed context after framed, Context.settle]

theorem abridges_called (arguments : List String) (body : Step) (inner : Abridges names body) :
    Abridges names (Step.called arguments body) :=
  abridges_around (·.enterCall arguments) body
    (fun start => Step.update (·.leaveCall start.positional))
    (fun start after => after.leaveCall start.positional) inner
    (Context.advanced_conserved.called_step arguments body inner.advanced)
    (fun _ => ⟨rfl, rfl, rfl⟩) (fun _ _ _ => rfl) (fun _ _ => ⟨rfl, rfl⟩)
    fun _ _ => ⟨rfl, rfl, rfl, rfl, rfl⟩

theorem abridges_restored (bindings : List (String × Option String)) (step : Step)
    (inner : Abridges names step) :
    Abridges names (step.andThen (Step.update (Step.restore bindings))) := by
  refine abridges_around id step (fun _ => Step.update (Step.restore bindings))
    (fun _ => Step.restore bindings) inner
    (Context.advanced_conserved.andThen _ _ inner.advanced
      (Conserved.update _ (Context.advanced_conserved.restore bindings)))
    (fun _ => ⟨rfl, rfl, rfl⟩) (fun _ _ _ => rfl)
    (fun _ context => ⟨rfl, context.restore_recast bindings⟩) fun _ context => ?_
  rw [Context.restore_fields]
  exact ⟨rfl, rfl, rfl, rfl, rfl⟩

theorem abridges_callAssigning (saved : List String) (assignments : List Step) (step : Step)
    (assigned : Firm names (Step.inOrder assignments)) (inner : Abridges names step) :
    Abridges names (callAssigning saved assignments step) :=
  abridges_reads (Step.saved saved) (fun _ => rfl)
    (fun _ bindings => (Step.inOrder assignments).andThen
      (step.andThen (Step.update (Step.restore bindings)))) fun bindings =>
    abridges_onward _ _ assigned (abridges_restored bindings step inner)

end Abridging

section Abridged

variable {names : String → Prop} {host : Host} {limits : Limits} {call : Calling}

theorem handle_advanced (name : String) (arguments : List String) :
    (handle ⟨host, .standard, limits⟩ name arguments).Keeps Context.Advanced := by
  refine Conserved.handle _ ?_ name arguments
  intro name arguments before after ran
  exact ⟨(Registry.run_untouched _ _ (Registry.standard_wellBehaved host) name arguments
      before after ran).framed,
    Registry.standard_output host name arguments before after ran,
    Registry.standard_errors host name arguments before after ran⟩

theorem firm_handle (name : String) (arguments : List String) :
    Firm names (handle ⟨host, .standard, limits⟩ name arguments) :=
  ⟨handle_advanced name arguments, Recast.handle host limits name arguments⟩

theorem firm_refuse (limits : Limits) (name : String) (body : Node) (arguments : List String) :
    Firm names (refuse limits name body arguments) :=
  firm_update _ (fun context => Context.advanced_conserved.trans _ _ _
    (Context.advanced_conserved.addErrors context _) (Context.advanced_conserved.setExitCode _ 1))
    (fun _ => rfl) fun _ => rfl

theorem dispatch_advanced
    (called : ∀ name body arguments, (call name body arguments).Keeps Context.Advanced)
    (name : String) (arguments : List String) :
    (dispatch ⟨host, .standard, limits⟩ call name arguments).Keeps Context.Advanced :=
  Conserved.dispatch _ call handle_advanced called name arguments

theorem firm_dispatch
    (called : ∀ name body arguments, (call name body arguments).Keeps Context.Advanced)
    (name : String) (undefined : ¬ names name) (arguments : List String) :
    Firm names (dispatch ⟨host, .standard, limits⟩ call name arguments) := by
  have performed : ∀ context : Context, Lenient names context.strict context.functions →
      context.functions.get? name = none := by
    intro context inside
    cases found : context.functions.get? name with
    | none => rfl
    | some body => exact absurd (inside.2 name body found).1 undefined
  have level : Recast (fun _ => true) id (Lenient names) fun _ =>
      handle ⟨host, .standard, limits⟩ name arguments := Recast.handle host limits name arguments
  refine ⟨dispatch_advanced called name arguments, ?_, ?_⟩
  · intro before after inside done
    simp only [dispatch, performed before inside] at done
    exact level.kept before after inside done
  · intro before inside
    have absent := performed before inside
    have still : (before.recast (fun _ => true) id).functions.get? name = none := absent
    simp only [dispatch, absent, still]
    exact level.same before inside

theorem abridges_dispatch
    (called : ∀ name body arguments, (call name body arguments).Keeps Context.Advanced)
    (calls : ∀ name body arguments, body.Orderly names →
      Abridges names (call name body arguments)) (name : String) (arguments : List String) :
    Abridges names (dispatch ⟨host, .standard, limits⟩ call name arguments) := by
  refine ⟨dispatch_advanced called name arguments, ?_⟩
  intro full after inside done
  cases found : full.functions.get? name with
  | some body =>
      have still : full.stricter.functions.get? name = some body := found
      simp only [dispatch, found] at done
      simp only [dispatch, still]
      exact (calls name body arguments (inside.2 name body found).2).cut full after inside done
  | none =>
      have still : full.stricter.functions.get? name = none := found
      simp only [dispatch, found] at done
      simp only [dispatch, still]
      exact (firm_handle name arguments).abridges.cut full after inside done

theorem firm_commanding (host : Host) (limits : Limits)
    (called : ∀ name body arguments, (call name body arguments).Keeps Context.Advanced) :
    Commanding (fun steps : Unit → Step => Firm names (steps ()))
      (fun steps : Unit → Step => Firm names (steps ()))
      (fun node => node.Simple names ∨ node.isAssignment = true)
      (fun _ => dispatch ⟨host, .standard, limits⟩ call) where
  onward := fun first second => firm_andThen (first ()) (second ())
  word := fun _ _ node _ => firm_reads node.expand fun _ => rfl
  known := fun _ => firm_reads _ fun _ => rfl
  setVariable := fun _ name _ _ => firm_setVariable name.text
  malformed := fun node missing _ _ => firm_faulty (.malformed (.at node missing))
  inScope := fun step => firm_inScope (step ())
  callAssigning := fun saved assignments step =>
    firm_callAssigning saved (assignments ()) (step ())
  dispatched := fun source name arguments assignments simple texts => by
    rcases simple with simple | simple
    · exact firm_dispatch called name.text (simple name rfl) texts
    · cases simple

theorem firm_prefixed
    (called : ∀ name body arguments, (call name body arguments).Keeps Context.Advanced)
    (assignments : List Node) (assigning : ∀ part ∈ assignments, part.isAssignment = true) :
    Firm names (Step.inOrder (assignments.map (node ⟨host, .standard, limits⟩ call))) := by
  refine inOrder_of_andThen (P := fun steps : Unit → Step => Firm names (steps ())) firm_skip
    (fun first second => firm_andThen (first ()) (second ())) assignments
    (fun _ => node ⟨host, .standard, limits⟩ call) fun part member => ?_
  have plain := assigning part member
  cases part with
  | assignment source name value =>
      rw [node]
      exact (firm_commanding host limits called).assign source name value (.inr rfl)
  | _ => cases plain

theorem firm_condition
    (called : ∀ name body arguments, (call name body arguments).Keeps Context.Advanced)
    (condition : List Node) (short : condition.length ≤ 1)
    (simple : ∀ check ∈ condition, check.Simple names)
    (assigning : ∀ check ∈ condition, check.Assigning) :
    Firm names (Step.sequence (condition.map (node ⟨host, .standard, limits⟩ call))) := by
  match condition, short with
  | [], _ => exact firm_skip
  | [check], _ =>
      rw [List.map_singleton, Step.sequence_single]
      have plain := simple check (List.mem_singleton_self _)
      cases check with
      | command source name arguments assignments =>
          rw [node_eq_nodeWith]
          exact (firm_commanding host limits called).command source name arguments assignments
            (fun _ => node ⟨host, .standard, limits⟩ call) (.inl plain)
            (firm_prefixed called assignments
              (assigning _ (List.mem_singleton_self _) _ .self))
      | _ => cases plain

theorem abridges_define (name : String) (body : Node) (named : names name)
    (orderly : body.Orderly names) : Abridges names (Step.update (·.define name body)) := by
  refine ⟨Conserved.update _ fun context =>
    Context.advanced_conserved.define context name body, ?_⟩
  intro full after inside done
  cases done
  refine ⟨⟨inside.1, ?_⟩, _, rfl, .inl rfl⟩
  intro other found here
  rcases Table.get?_insert_or full.functions name other body found here with ⟨rfl, rfl⟩ | before
  · exact ⟨named, orderly⟩
  · exact inside.2 other found before

theorem abridges_course
    (called : ∀ name body arguments, (call name body arguments).Keeps Context.Advanced)
    (calls : ∀ name body arguments, body.Orderly names →
      Abridges names (call name body arguments)) :
    Course (fun steps : Unit → Step => Firm names (steps ()))
      (fun steps : Unit → Step => Abridges names (steps ())) (Node.Orderly names)
      (fun _ => limits.iterations) (fun _ => dispatch ⟨host, .standard, limits⟩ call) where
  toFlow := abridges_flow
  word := fun _ _ node _ => abridges_reads node.expand fun _ => rfl
  known := fun _ => abridges_reads _ fun _ => rfl
  positional := abridges_reads _ fun _ => rfl
  bind := fun _ binder _ _ _ => firm_setVariable binder.text
  setVariable := fun _ name _ _ text => (firm_setVariable name.text text).abridges
  malformed := fun node missing _ _ => (firm_faulty (.malformed (.at node missing))).abridges
  misnamed := fun name => Firm.abridges _ (firm_update _
    (fun context => Context.advanced_conserved.trans _ _ _
      (Context.advanced_conserved.addErrors context [identifierMessage name])
      (Context.advanced_conserved.setExitCode _ 1)) (fun _ => rfl) fun _ => rfl)
  define := fun source name body orderly => abridges_define name.text body
    (orderly.defined name.text ⟨source, name, some body, .self, rfl⟩)
    (Node.orderly_executed names _ body orderly (by simp [Node.executed]))
  loop := fun untilTrue condition body checked repeated =>
    abridges_flow.rounds untilTrue limits.iterations condition body
      (Firm.abridges _ (firm_update _ (fun context =>
        Context.advanced_conserved.addErrors context _) (fun _ => rfl) fun _ => rfl))
      checked repeated limits.iterations
  inScope := fun step => abridges_inScope (step ())
  callAssigning := fun saved assignments step =>
    abridges_callAssigning saved (assignments ()) (step ())
  dispatched := fun _ name _ _ _ texts => abridges_dispatch called calls name.text texts

theorem abridges_node
    (called : ∀ name body arguments, (call name body arguments).Keeps Context.Advanced)
    (calls : ∀ name body arguments, body.Orderly names →
      Abridges names (call name body arguments)) (whole : Node) (orderly : whole.Orderly names) :
    Abridges names (node ⟨host, .standard, limits⟩ call whole) := by
  refine node_of_course (fun _ : Unit => ⟨host, .standard, limits⟩) (fun _ => call)
    (abridges_course called calls) (Node.orderly_executed names) ?_ ?_ whole orderly
  · intro whole orderly _ condition checked
    obtain ⟨inner, inside, same⟩ := Node.conditions_inside whole condition checked
    obtain ⟨short, simple⟩ := orderly.checked inner inside
    rw [same] at short simple
    refine firm_condition called condition short simple fun check member => ?_
    exact (Node.orderly_executed names whole check orderly
      (Node.executed_conditions whole check condition checked member)).assigning
  · intro whole orderly _
    exact firm_prefixed called whole.prefixed (orderly.assigning whole .self)

theorem abridges_call (limits : Limits) (run : Node → Step) (name : String) (body : Node)
    (arguments : List String) (inner : Abridges names (run body)) :
    Abridges names (Walk.call limits run name body arguments) :=
  call_of_reads limits (fun _ : Unit => run) name body arguments (abridges_reads _ fun _ => rfl)
    (firm_refuse limits name body arguments).abridges (abridges_called arguments _ inner)

theorem abridges_bodies (room : Nat)
    (inner : ∀ fewer, room = fewer + 1 → ∀ body, body.Orderly names →
      Abridges names (Shell.within ⟨host, .standard, limits⟩ fewer body))
    (body : Node) (orderly : body.Orderly names) :
    Abridges names (bodies ⟨host, .standard, limits⟩ room body) := by
  cases room with
  | zero => exact (firm_faulty (.panicked overflowMessage)).abridges
  | succ room => exact inner room rfl body orderly

theorem abridges_within (room : Nat) (whole : Node) (orderly : whole.Orderly names) :
    Abridges names (Shell.within ⟨host, .standard, limits⟩ room whole) := by
  induction room using Nat.strongRecOn generalizing whole with
  | ind room ih =>
      have inner := abridges_bodies room fun fewer same => ih fewer (by omega)
      rw [within_eq]
      refine abridges_node ?_ ?_ whole orderly
      · exact Context.advanced_conserved.call limits _ (Conserved.bodies _ room fun fewer _ =>
          Context.advanced_conserved.within _ handle_advanced fewer)
      · intro name body arguments fits
        exact abridges_call limits _ name body arguments (inner body fits)

end Abridged

end Walk

-- The first part says that the second one speaks of all scripts that come from a parser.
theorem strict_run_abridges :
    (∀ tree : Tree, tree.toNode.Assigning) ∧
    ∀ (host : Host) (limits : Limits) (program : Node), program.Assigning →
      program.SimplyChecked program.Defines → ∀ (options : Options) (full : Context),
      Shell.run ⟨host, .standard, limits⟩ program { options with strict := false } = .ok full →
      ∃ short,
        Shell.run ⟨host, .standard, limits⟩ program { options with strict := true } = .ok short ∧
        short.output <+: full.output ∧ short.errors <+: full.errors ∧
        (short.exitCode = 0 → short = { full with strict := true }) := by
  refine ⟨Tree.toNode_assigning, ?_⟩
  intro host limits program assigning checked options full done
  have orderly : program.Orderly program.Defines := ⟨checked, assigning, fun _ defined => defined⟩
  have fresh : Walk.Lenient program.Defines false .empty :=
    ⟨rfl, fun name body found => by cases found⟩
  have abridges : Walk.Abridges program.Defines
      (Shell.within ⟨host, .standard, limits⟩ limits.recursion program) :=
    Walk.abridges_within limits.recursion program orderly
  obtain ⟨_, short, ran, abridged⟩ := abridges.cut _ full fresh done
  refine ⟨short, ran, ?_⟩
  rcases abridged with same | ⟨stopped, printed, reported⟩
  · rw [same]
    exact ⟨List.prefix_rfl, List.prefix_rfl, fun _ => rfl⟩
  · refine ⟨printed, reported, fun succeeded => ?_⟩
    simp [Context.stops, Context.succeeded, succeeded] at stopped

theorem strict_run_abridges_called :
    let program := Node.ofGroup [.ofFunction "f" (.ofCommand "false" [] []),
      .branch .ifStatement (.ofText "") [.ofCommand "true" [] []]
        [.ofCommand "echo" [.ofWord "a"] [], .ofCommand "f" [] []],
      .ofCommand "echo" [.ofWord "b"] []]
    ∃ full short,
      (Shell.standard .void).run program ⟨.simulate, .empty, false⟩ = .ok full ∧
      (Shell.standard .void).run program ⟨.simulate, .empty, true⟩ = .ok short ∧
      full.output = ["a", "b"] ∧ short.output = ["a"] ∧ short.output <+: full.output ∧
      short.errors <+: full.errors := by
  intro program
  have assigning : program.Assigning := by
    simp [Node.Assigning, program, Node.ofGroup, Node.ofFunction, Node.ofCommand, Node.ofWord,
      Node.prefixed]
  have undefined : ¬ program.Defines "true" := by
    rintro ⟨source, word, body, inside, text⟩
    have functions : ∀ inner, Node.Inside inner program → ∀ source word body,
        inner = .function source (some word) body → word.text = "f" := by
      simp [program, Node.ofGroup, Node.ofFunction, Node.ofCommand, Node.ofWord, Node.text,
        Node.source, Source.ofText]
    rw [functions _ inside source word body rfl] at text
    exact absurd text (by decide)
  have checked : ∀ defined : String → Prop, ¬ defined "true" → program.SimplyChecked defined := by
    intro defined undefined
    simpa [Node.SimplyChecked, program, Node.ofGroup, Node.ofFunction, Node.ofCommand, Node.ofWord,
      Node.condition, Node.Simple, Node.text, Node.source, Source.ofText] using undefined
  have finished : ∃ full, (Shell.standard .void).run program ⟨.simulate, .empty, false⟩ = .ok full ∧
      full.output = ["a", "b"] := ⟨_, rfl, rfl⟩
  obtain ⟨full, done, whole⟩ := finished
  obtain ⟨short, ran, printed, reported, _⟩ :=
    strict_run_abridges.2 .void .standard program assigning (checked _ undefined) .standard full done
  have stopped : ∃ short, (Shell.standard .void).run program ⟨.simulate, .empty, true⟩ = .ok short ∧
      short.output = ["a"] := ⟨_, rfl, rfl⟩
  obtain ⟨other, again, part⟩ := stopped
  have same : short = other := Except.ok.inj (ran.symm.trans again)
  exact ⟨full, short, done, ran, whole, same ▸ part, printed, reported⟩

-- What stands in front of a command may fail and be cut short without the command being so.
theorem strict_prefix_cut_short :
    let front := Node.ofGroup [.ofCommand "false" [] [], .ofCommand "echo" [.ofWord "a"] []]
    let program := Node.ofCommand "echo" [.ofWord "b"] [front]
    program.SimplyChecked program.Defines ∧ ∃ full short,
      (Shell.standard .void).run program ⟨.simulate, .empty, false⟩ = .ok full ∧
      (Shell.standard .void).run program ⟨.simulate, .empty, true⟩ = .ok short ∧
      full.output = ["a", "b"] ∧ short.output = ["b"] ∧ ¬ short.output <+: full.output ∧
      short.exitCode = 0 := by
  intro front program
  have unchecked : ∀ inner, Node.Inside inner program → inner.condition = [] := by
    simp [program, front, Node.ofGroup, Node.ofCommand, Node.ofWord, Node.condition]
  refine ⟨fun inner inside => ?_, _, _, rfl, rfl, rfl, rfl, by decide, rfl⟩
  rw [unchecked inner inside]
  exact ⟨Nat.zero_le 1, fun check member => by cases member⟩

end ShellWalk
