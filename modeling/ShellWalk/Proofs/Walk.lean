import ShellWalk.Proofs.Parts
import ShellWalk.Proofs.Runs
import ShellWalk.Walk.Basic

set_option autoImplicit false

namespace ShellWalk

inductive Node.Lacks : Node → Missing → Prop where
  | commandName (source : Source) (arguments assignments : List Node) :
      Lacks (.command source none arguments assignments) .commandName
  | variableName (source : Source) (value : Option Node) :
      Lacks (.assignment source none value) .variableName
  | loopVariable (source : Source) (values : List Node) (body : Option Node) :
      Lacks (.forEach source none values body) .loopVariable
  | functionName (source : Source) (body : Option Node) :
      Lacks (.function source none body) .functionName
  | functionBody (source : Source) (name : Node) :
      Lacks (.function source (some name) none) .functionBody

namespace Walk

def slotWith (run : Node → Step) (slot : Option Node) : Step := slot.elim Step.skip run

def clausesWith (run : Node → Step) : List Node → List Step.Clause
  | [] => []
  | .group .elseClause _ children :: rest =>
      .otherwise (children.map run) :: clausesWith run rest
  | .branch .elifClause _ condition children :: rest =>
      .orElse (condition.map run) (children.map run) :: clausesWith run rest
  | _ :: rest => clausesWith run rest

def armsWith (run : Node → Step) : List Node → List Arm
  | [] => []
  | .caseItem _ patterns children :: rest => ⟨patterns, children.map run⟩ :: armsWith run rest
  | _ :: rest => armsWith run rest

def chosen (arms : List Arm) (subject : String) : Step := fun context =>
  match arms.find? fun arm => arm.accepts subject context with
  | some arm => Step.sequence arm.body context
  | none => .ok context

theorem chosen_caseItem (run : Node → Step) (source : Source) (patterns children rest : List Node)
    (subject : String) (context : Context) :
    chosen (armsWith run (.caseItem source patterns children :: rest)) subject context =
      if (Arm.mk patterns []).accepts subject context then
        Step.sequence (children.map run) context
      else chosen (armsWith run rest) subject context := by
  have same : (Arm.mk patterns (children.map run)).accepts subject context =
      (Arm.mk patterns []).accepts subject context := rfl
  cases accepted : (Arm.mk patterns []).accepts subject context with
  | true => simp [armsWith, chosen, same, accepted]
  | false => simp [armsWith, chosen, same, accepted]

def answered (shell : Shell) (call : Calling) (name : String) (arguments : List String)
    (found : Option Node) : Step := fun context =>
  match found with
  | some body => call name body arguments context
  | none => handle shell name arguments context

-- The step of a node whose inner nodes are run by `run`; a walk is a solution of this equation.
def nodeWith (iterations : Nat) (dispatch : Dispatch) (run : Node → Step) : Node → Step
  | .group _ _ children => Step.sequence (children.map run)
  | .assignment source name value => assign (.assignment source name value) name value
  | .command source name arguments assignments =>
      command dispatch (.command source name arguments assignments) name arguments assignments
        (assignments.map run)
  | .branch _ _ condition children =>
      Step.conditional (condition.map run)
        ((children.filter fun child => !child.isAlternative).map run) (clausesWith run children)
  | .loop untilTrue _ condition body =>
      Step.loop untilTrue iterations (Step.sequence (condition.map run)) (slotWith run body)
  | .forEach source binder values body =>
      iterate (.forEach source binder values body) binder values (slotWith run body)
  | .caseOf _ subject items => select subject (armsWith run items)
  | .function source name body => define (.function source name body) name body
  | .subshell _ children => Step.inScope (Step.sequence (children.map run))
  | .redirected _ body _ => slotWith run body
  | .caseItem .. => Step.skip
  | .phrase .. => Step.skip
  | .leaf .. => Step.skip
  | .other .. => Step.skip

theorem slotWith_map (run : Node → Step) (change : Node → Node) (slot : Option Node) :
    slotWith run (slot.map change) = slotWith (fun node => run (change node)) slot := by
  cases slot <;> rfl

theorem slot_eq (shell : Shell) (call : Calling) (filled : Option Node) :
    slot shell call filled = slotWith (node shell call) filled := by
  cases filled with
  | none => rw [slot]; rfl
  | some inner => rw [slot]; rfl

theorem clauses_eq (shell : Shell) (call : Calling) (children : List Node) :
    clauses shell call children = clausesWith (node shell call) children := by
  fun_induction clausesWith (node shell call) children with
  | case1 => rw [clauses]
  | case2 source body rest ih => rw [clauses, all_eq_map, ih]
  | case3 source condition body rest ih => rw [clauses, all_eq_map, all_eq_map, ih]
  | case4 child rest noElse noElif ih => rw [clauses, ih] <;> assumption

theorem arms_eq (shell : Shell) (call : Calling) (items : List Node) :
    arms shell call items = armsWith (node shell call) items := by
  fun_induction armsWith (node shell call) items with
  | case1 => rw [arms]
  | case2 source patterns body rest ih => rw [arms, all_eq_map, ih]
  | case3 item rest noItem ih => rw [arms, ih]; assumption

theorem node_eq_nodeWith (shell : Shell) (call : Calling) (whole : Node) :
    node shell call whole =
      nodeWith shell.limits.iterations (dispatch shell call) (node shell call) whole := by
  cases whole <;>
    simp only [node, nodeWith, all_eq_map, body_eq_map, slot_eq, clauses_eq, arms_eq]

def bodies (shell : Shell) : Nat → Node → Step
  | 0 => overflow
  | room + 1 => shell.within room

def calling (shell : Shell) (room : Nat) : Calling := call shell.limits (bodies shell room)

theorem within_eq (shell : Shell) (room : Nat) (whole : Node) :
    shell.within room whole = node shell (calling shell room) whole := by
  cases room <;> rfl

theorem within_eq_nodeWith (shell : Shell) (room : Nat) (whole : Node) :
    shell.within room whole = nodeWith shell.limits.iterations
      (dispatch shell (calling shell room)) (shell.within room) whole := by
  have walk : shell.within room = node shell (calling shell room) :=
    funext (within_eq shell room)
  rw [walk]
  exact node_eq_nodeWith shell (calling shell room) whole

variable {Run : Type} {E P : (Run → Step) → Prop} {fit : Node → Prop} {iterations : Run → Nat}
  {dispatch : Run → Dispatch}

theorem handle_ok (shell : Shell) (name : String) (arguments : List String)
    (before after : Context) (done : handle shell name arguments before = .ok after) :
    shell.registry.run shell.host name arguments before = .ok after := by
  unfold handle at done
  cases answered : shell.registry.run shell.host name arguments before with
  | error message => simp [answered, Context.settle] at done
  | ok answer =>
      simp only [answered, Context.settle] at done
      cases done
      rfl

theorem call_of_reads (limits : Limits) (run : Run → Node → Step) (name : String) (body : Node)
    (arguments : List String) (depth : Reads P Context.callDepth)
    (refused : P fun _ => refuse limits name body arguments)
    (called : P fun which => Step.called arguments (run which body)) :
    P fun which => call limits (run which) name body arguments := by
  refine depth (fun which depth context =>
    if limits.recursion ≤ depth then refuse limits name body arguments context
    else Step.called arguments (run which body) context) fun depth => ?_
  by_cases deep : limits.recursion ≤ depth
  · simpa only [if_pos deep] using refused
  · simpa only [if_neg deep] using called

theorem call_cases (limits : Limits) (run : Node → Step) (name : String) (body : Node)
    (arguments : List String) (before after : Context)
    (done : call limits run name body arguments before = .ok after) :
    Step.called arguments (run body) before = .ok after ∨
      refuse limits name body arguments before = .ok after := by
  unfold call at done
  by_cases deep : limits.recursion ≤ before.callDepth
  · rw [if_pos deep] at done
    exact .inr done
  · rw [if_neg deep] at done
    exact .inl done

theorem dispatch_of_reads (shell : Run → Shell) (call : Run → Calling) (name : String)
    (arguments : List String) (reads : Reads P fun context => context.functions.get? name)
    (calls : ∀ body, P fun run => call run name body arguments)
    (handled : P fun run => handle (shell run) name arguments) :
    P fun run => Walk.dispatch (shell run) (call run) name arguments := by
  refine reads (fun run => answered (shell run) (call run) name arguments) fun found => ?_
  cases found with
  | some body => exact calls body
  | none => exact handled

theorem callAssigning_ok (names : List String) (assignments : List Step) (run : Step)
    (before after : Context) (done : callAssigning names assignments run before = .ok after) :
    ∃ assigned left, Step.inOrder assignments before = .ok assigned ∧ run assigned = .ok left ∧
      after = Step.restore (Step.saved names before) left := by
  obtain ⟨assigned, ran, rest⟩ := Step.andThen_ok (Step.inOrder assignments)
    (fun assigned => run.andThen
      (Step.update (Step.restore (Step.saved names before))) assigned) before after done
  obtain ⟨left, stepped, restored⟩ := Step.andThen_ok run _ assigned after rest
  cases restored
  exact ⟨assigned, left, ran, stepped, rfl⟩

theorem callAssigning_of_control (control : Control P) (names : List String)
    (saved : Reads P (Step.saved names))
    (restored : ∀ bindings, P fun _ => Step.update (Step.restore bindings))
    (assignments : Run → List Step) (step : Run → Step)
    (assigned : P fun run => Step.inOrder (assignments run)) (stepped : P step) :
    P fun run => callAssigning names (assignments run) (step run) := by
  refine saved (fun run bindings => (Step.inOrder (assignments run)).andThen
    ((step run).andThen (Step.update (Step.restore bindings)))) fun bindings => ?_
  exact control.andThen _ _ assigned (control.andThen step _ stepped (restored bindings))

-- What assignments and commands need of a property that is to hold of the runs of all `fit` nodes.
-- The assignments in front of a command go through to their end, so for them it is `E` that counts.
structure Commanding (E P : (Run → Step) → Prop) (fit : Node → Prop) (dispatch : Run → Dispatch) :
    Prop where
  onward : ∀ first second : Run → Step, E first → P second →
    P fun run => (first run).andThen (second run)
  word : ∀ whole, fit whole → ∀ node ∈ whole.words, Reads P node.expand
  known : ∀ name, Reads P fun context => context.functions.contains name
  setVariable : ∀ source name value, fit (.assignment source (some name) value) →
    ∀ text, P fun _ => Step.update (·.setVariable name.text text)
  malformed : ∀ node missing, fit node → node.Lacks missing →
    P fun _ context => context.malformed node missing
  inScope : ∀ step : Run → Step, P step → P fun run => Step.inScope (step run)
  callAssigning : ∀ (names : List String) (assignments : Run → List Step) (step : Run → Step),
    E (fun run => Step.inOrder (assignments run)) → P step →
    P fun run => callAssigning names (assignments run) (step run)
  dispatched : ∀ source name arguments assignments,
    fit (.command source (some name) arguments assignments) →
    ∀ texts, P fun run => dispatch run name.text texts

-- What all other nodes need besides: each piece out of which the step of a node is built has the
-- property, or passes it on. Conditions, too, go through to their end.
structure Course (E P : (Run → Step) → Prop) (fit : Node → Prop) (iterations : Run → Nat)
    (dispatch : Run → Dispatch) : Prop extends Flow E P, Commanding E P fit dispatch where
  positional : Reads P Context.positional
  bind : ∀ source binder values body, fit (.forEach source (some binder) values body) →
    ∀ text, E fun _ => Step.update (·.setVariable binder.text text)
  define : ∀ source name body, fit (.function source (some name) (some body)) →
    P fun _ => Step.update (·.define name.text body)
  misnamed : ∀ name, P fun _ => Step.update fun context =>
    (context.addErrors [identifierMessage name]).setExitCode 1
  loop : ∀ (untilTrue : Bool) (condition body : Run → Step), E condition → P body →
    P fun run => Step.loop untilTrue (iterations run) (condition run) (body run)

theorem expandSlot_reads (slot : Option Node) (each : ∀ node ∈ slot.toList, Reads P node.expand) :
    Reads P (Node.expandSlot slot) := by
  cases slot with
  | none => exact Reads.const ""
  | some node => exact each node (by simp)

namespace Commanding

theorem assign (commanding : Commanding E P fit dispatch) (source : Source)
    (name value : Option Node) (covered : fit (.assignment source name value)) :
    P fun _ => assign (.assignment source name value) name value := by
  cases name with
  | none => exact commanding.malformed _ _ covered (.variableName source value)
  | some name =>
      exact expandSlot_reads value (commanding.word _ covered)
        (fun _ text => Step.update (·.setVariable name.text text))
        (commanding.setVariable source name value covered)

theorem command (commanding : Commanding E P fit dispatch) (source : Source)
    (name : Option Node) (arguments assignments : List Node) (run : Run → Node → Step)
    (covered : fit (.command source name arguments assignments))
    (assigned : E fun which => Step.inOrder (assignments.map (run which))) :
    P fun which => command (dispatch which) (.command source name arguments assignments) name
      arguments assignments (assignments.map (run which)) := by
  cases name with
  | none => exact commanding.malformed _ _ covered (.commandName source arguments assignments)
  | some name =>
      refine Reads.list arguments Node.expand (commanding.word _ covered)
        (fun which texts context =>
          if assignments.isEmpty then dispatch which name.text texts context
          else if context.functions.contains name.text then
            Walk.callAssigning (assignments.filterMap Node.assignedName?)
              (assignments.map (run which)) (dispatch which name.text texts) context
          else Step.inScope ((Step.inOrder (assignments.map (run which))).andThen
            (dispatch which name.text texts)) context) fun texts => ?_
      have ran := commanding.dispatched source name arguments assignments covered texts
      by_cases none : assignments.isEmpty
      · simpa only [if_pos none] using ran
      · simp only [if_neg none]
        exact (commanding.known name.text).branch _ _
          (commanding.callAssigning _ _ _ assigned ran)
          (commanding.inScope _ (commanding.onward _ _ assigned ran))

end Commanding

namespace Course

theorem pattern (node : Node) (read : Reads P node.expand) : Reads P node.pattern := by
  cases node with
  | other kind source children => exact Reads.const source.text
  | _ => exact read

theorem accepts (patterns : List Node) (body : List Step) (subject : String)
    (each : ∀ node ∈ patterns, Reads P node.expand) :
    Reads P ((Arm.mk patterns body).accepts subject) := by
  have texts := Reads.list patterns Node.pattern fun node member =>
    pattern node (each node member)
  have any := texts.map fun read => read.any fun text => patternMatches text subject
  have same : (Arm.mk patterns body).accepts subject = fun context =>
      (patterns.map fun pattern => pattern.pattern context).any fun text =>
        patternMatches text subject := by
    funext context
    simp only [Arm.accepts, List.any_map, Function.comp_def]
  rw [same]
  exact any

theorem defining (course : Course E P fit iterations dispatch) (source : Source)
    (name body : Option Node) (covered : fit (.function source name body)) :
    P fun _ => Walk.define (.function source name body) name body := by
  cases name with
  | none => exact course.malformed _ _ covered (.functionName source body)
  | some name =>
      cases body with
      | none => exact course.malformed _ _ covered (.functionBody source name)
      | some body => exact course.define source name body covered

theorem items (course : Course E P fit iterations dispatch) (values : List Node)
    (each : ∀ node ∈ values, Reads P node.expand) : Reads P (items values) := by
  unfold Walk.items
  by_cases none : values.isEmpty
  · simpa only [if_pos none] using course.positional
  · simp only [if_neg none]
    exact Reads.list values Node.expand each

theorem iterate (course : Course E P fit iterations dispatch) (source : Source)
    (binder : Option Node) (values : List Node) (slot : Option Node) (body : Run → Step)
    (covered : fit (.forEach source binder values slot)) (repeated : P body) :
    P fun run => iterate (.forEach source binder values slot) binder values (body run) := by
  cases binder with
  | none => exact course.malformed _ _ covered (.loopVariable source values slot)
  | some binder =>
      unfold Walk.iterate
      by_cases named : isIdentifier binder.text.toList
      · simp only [if_pos named]
        have rounds := course.toFlow.forEach binder.text body
          (course.bind source binder values slot covered) repeated
        exact course.items values (course.word _ covered)
          (fun run texts => Step.forEach binder.text (body run) texts) rounds
      · simp only [if_neg named]
        exact course.misnamed binder.text

theorem select (course : Course E P fit iterations dispatch) (subject : Option Node)
    (items : List Node) (run : Run → Node → Step)
    (subjects : ∀ node ∈ subject.toList, Reads P node.expand)
    (patterns : ∀ node ∈ items.flatMap Node.itemPatterns, Reads P node.expand)
    (inner : ∀ part ∈ items.flatMap Node.itemParts, P fun which => run which part) :
    P fun which => select subject (armsWith (run which) items) := by
  refine expandSlot_reads subject subjects (fun which =>
    chosen (armsWith (run which) items)) fun text => ?_
  induction items with
  | nil => exact course.skip
  | cons item rest ih =>
      rw [List.flatMap_cons] at patterns inner
      have later := ih (fun node member => patterns node (List.mem_append_right _ member))
        (fun part member => inner part (List.mem_append_right _ member))
      cases item with
      | caseItem source shapes children =>
          have body := course.toFlow.sequence children run fun part member =>
            inner part (List.mem_append_left _ member)
          have read := accepts shapes [] text fun node member =>
            patterns node (List.mem_append_left _ member)
          have split := read.branch _ _ body later
          refine cast (congrArg P ?_) split
          funext which context
          exact (chosen_caseItem (run which) source shapes children rest text context).symm
      | _ => exact later

theorem alternatives (course : Course E P fit iterations dispatch) (children : List Node)
    (run : Run → Node → Step)
    (checked : ∀ condition ∈ children.flatMap Node.clauseConditions,
      E fun which => Step.sequence (condition.map (run which)))
    (inner : ∀ part ∈ children.flatMap Node.clauseParts, P fun which => run which part) :
    P fun which => Step.alternatives (clausesWith (run which) children) := by
  induction children with
  | nil => exact course.skip
  | cons child rest ih =>
      rw [List.flatMap_cons] at checked inner
      have later := ih (fun condition member => checked condition (List.mem_append_right _ member))
        fun part member => inner part (List.mem_append_right _ member)
      have here := fun part member => inner part (List.mem_append_left _ member)
      cases child with
      | group kind source body =>
          cases kind with
          | elseClause => exact course.toFlow.sequence body run here
          | _ => exact later
      | branch kind source condition body =>
          cases kind with
          | ifStatement => exact later
          | elifClause =>
              have conditions := checked condition (List.mem_append_left _ (by
                simp [Node.clauseConditions]))
              have bodies := course.toFlow.sequence body run fun part member =>
                here part (List.mem_append_right _ member)
              exact course.toFlow.whenSucceeded _ _ _ conditions bodies later
      | _ => exact later

theorem body (course : Course E P fit iterations dispatch) (children : List Node)
    (run : Run → Node → Step)
    (inner : ∀ part ∈ children.flatMap Node.clauseParts, P fun which => run which part) :
    P fun which => Step.sequence
      ((children.filter fun child => !child.isAlternative).map (run which)) := by
  refine course.toFlow.sequence _ run fun child member => ?_
  obtain ⟨present, plain⟩ := List.mem_filter.mp member
  have alone : child.clauseParts = [child] := by
    fun_cases Node.clauseParts child with
    | case1 source children => simp [Node.isAlternative] at plain
    | case2 source condition children => simp [Node.isAlternative] at plain
    | case3 child _ _ => rfl
  exact inner child (List.mem_flatMap.mpr ⟨child, present, by simp [alone]⟩)

theorem slotWith (course : Course E P fit iterations dispatch) (slot : Option Node)
    (run : Run → Node → Step) (inner : ∀ node ∈ slot.toList, P fun which => run which node) :
    P fun which => slotWith (run which) slot := by
  cases slot with
  | none => exact course.skip
  | some node => exact inner node (by simp)

theorem nodeWith (course : Course E P fit iterations dispatch) (whole : Node) (covered : fit whole)
    (run : Run → Node → Step)
    (checked : ∀ condition ∈ whole.conditions,
      E fun which => Step.sequence (condition.map (run which)))
    (assigned : E fun which => Step.inOrder (whole.prefixed.map (run which)))
    (inner : ∀ part ∈ whole.executed, P fun which => run which part) :
    P fun which => nodeWith (iterations which) (dispatch which) (run which) whole := by
  cases whole with
  | group kind source children => exact course.toFlow.sequence children run inner
  | assignment source name value => exact course.toCommanding.assign source name value covered
  | command source name arguments assignments =>
      exact course.toCommanding.command source name arguments assignments run covered assigned
  | branch kind source condition children =>
      have ran := fun part member => inner part (List.mem_append_right _ member)
      exact course.toFlow.whenSucceeded _ _ _ (checked condition (List.mem_cons_self ..))
        (course.body children run ran)
        (course.alternatives children run
          (fun condition member => checked condition (List.mem_cons_of_mem _ member)) ran)
  | loop untilTrue source condition body =>
      exact course.loop untilTrue _ _ (checked condition (List.mem_cons_self ..))
        (course.slotWith body run fun node member => inner node (List.mem_append_right _ member))
  | forEach source binder values body =>
      exact course.iterate source binder values body _ covered (course.slotWith body run inner)
  | caseOf source subject items =>
      exact course.select subject items run
        (fun node member => course.word _ covered node (List.mem_append_left _ member))
        (fun node member => course.word _ covered node (List.mem_append_right _ member)) inner
  | function source name body => exact course.defining source name body covered
  | subshell source children =>
      exact course.inScope _ (course.toFlow.sequence children run inner)
  | redirected source body redirects => exact course.slotWith body run inner
  | caseItem source patterns children => exact course.skip
  | phrase kind source children => exact course.skip
  | leaf kind source => exact course.skip
  | other kind source children => exact course.skip

end Course

theorem node_of_course (shell : Run → Shell) (call : Run → Calling)
    (course : Course E P fit (fun run => (shell run).limits.iterations)
      fun run => Walk.dispatch (shell run) (call run))
    (closed : ∀ whole part, fit whole → part ∈ whole.executed → fit part)
    (checked : ∀ whole, fit whole →
      (∀ part ∈ whole.executed, P fun run => node (shell run) (call run) part) →
      ∀ condition ∈ whole.conditions,
        E fun run => Step.sequence (condition.map (node (shell run) (call run))))
    (assigned : ∀ whole, fit whole →
      (∀ part ∈ whole.executed, P fun run => node (shell run) (call run) part) →
      E fun run => Step.inOrder (whole.prefixed.map (node (shell run) (call run))))
    (whole : Node) (covered : fit whole) : P fun run => node (shell run) (call run) whole := by
  induction whole using Node.induction_beneath with
  | step whole ih =>
      have inner : ∀ part ∈ whole.executed, P fun run => node (shell run) (call run) part :=
        fun part member => ih part (Node.beneath_executed part whole member)
          (closed whole part covered member)
      have opened := course.nodeWith whole covered (fun run => node (shell run) (call run))
        (checked whole covered inner) (assigned whole covered inner) inner
      simpa only [← node_eq_nodeWith] using opened

-- The same for runs that need no such distinction, and for nodes that are `fit` in all their parts.
structure Pieces (P : (Run → Step) → Prop) (fit : Node → Prop) (iterations : Run → Nat)
    (dispatch : Run → Dispatch) : Prop extends Control P where
  fitPart : ∀ whole part : Node, fit whole → part ∈ whole.parts → fit part
  word : ∀ node : Node, fit node → Reads P node.expand
  positional : Reads P Context.positional
  known : ∀ name, Reads P fun context => context.functions.contains name
  setVariable : ∀ name value, P fun _ => Step.update (·.setVariable name value)
  define : ∀ name body, fit body → P fun _ => Step.update (·.define name body)
  malformed : ∀ node missing, P fun _ context => context.malformed node missing
  misnamed : ∀ name, P fun _ => Step.update fun context =>
    (context.addErrors [identifierMessage name]).setExitCode 1
  loop : ∀ (untilTrue : Bool) (condition body : Run → Step), P condition → P body →
    P fun run => Step.loop untilTrue (iterations run) (condition run) (body run)
  inScope : ∀ step : Run → Step, P step → P fun run => Step.inScope (step run)
  callAssigning : ∀ (names : List String) (assignments : Run → List Step) (step : Run → Step),
    P (fun run => Step.inOrder (assignments run)) → P step →
    P fun run => callAssigning names (assignments run) (step run)
  dispatched : ∀ name arguments, P fun run => dispatch run name arguments

namespace Pieces

theorem fitInside (pieces : Pieces P fit iterations dispatch) (inner whole : Node)
    (inside : Node.Inside inner whole) (covered : fit whole) : fit inner := by
  induction inside with
  | self => exact covered
  | part whole part member _ ih => exact ih (pieces.fitPart whole part covered member)

theorem course (pieces : Pieces P fit iterations dispatch) :
    Course P P fit iterations dispatch where
  toFlow := pieces.toControl.flow
  word := fun whole covered node member => pieces.word node (pieces.fitInside node whole
    (Node.beneath_inside node whole (Node.beneath_words node whole member)) covered)
  positional := pieces.positional
  known := pieces.known
  bind := fun _ binder _ _ _ => pieces.setVariable binder.text
  setVariable := fun _ name _ _ => pieces.setVariable name.text
  define := fun source name body covered => pieces.define name.text body
    (pieces.fitPart _ body covered (by simp [Node.parts]))
  malformed := fun node missing _ _ => pieces.malformed node missing
  misnamed := pieces.misnamed
  loop := pieces.loop
  inScope := pieces.inScope
  callAssigning := pieces.callAssigning
  dispatched := fun _ name _ _ _ texts => pieces.dispatched name.text texts

theorem nodeWith (pieces : Pieces P fit iterations dispatch) (whole : Node) (covered : fit whole)
    (run : Run → Node → Step)
    (inner : ∀ part, Node.Beneath part whole → P fun which => run which part) :
    P fun which => nodeWith (iterations which) (dispatch which) (run which) whole := by
  have executed : ∀ part ∈ whole.executed, P fun which => run which part :=
    fun part member => inner part (Node.beneath_executed part whole member)
  refine pieces.course.nodeWith whole covered run ?_ ?_ executed
  · intro condition checked
    exact pieces.toControl.flow.sequence condition run fun part member =>
      executed part (Node.executed_conditions whole part condition checked member)
  · exact pieces.toControl.inOrder whole.prefixed run fun part member =>
      executed part (Node.executed_prefixed whole part member)

end Pieces

theorem node_of_pieces (shell : Run → Shell) (call : Run → Calling)
    (pieces : Pieces P fit (fun run => (shell run).limits.iterations)
      fun run => Walk.dispatch (shell run) (call run))
    (whole : Node) (covered : fit whole) : P fun run => node (shell run) (call run) whole := by
  induction whole using Node.induction_beneath with
  | step whole ih =>
      have opened := pieces.nodeWith whole covered (fun run => node (shell run) (call run))
        fun part beneath => ih part beneath
          (pieces.fitInside part whole (Node.beneath_inside part whole beneath) covered)
      simpa only [← node_eq_nodeWith] using opened

end Walk

end ShellWalk
