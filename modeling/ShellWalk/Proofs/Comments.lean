import ShellWalk.Proofs.Interference
import ShellWalk.Proofs.Recast
import ShellWalk.Proofs.Selection
import ShellWalk.Proofs.Uncommented

set_option autoImplicit false

namespace ShellWalk

theorem Node.uncommented_pattern (strict : Bool) (node : Node) (context : Context) :
    (node.uncommented strict).pattern context = node.pattern context := by
  have same : (node.uncommented strict).expand context = node.expand context :=
    uncommented_wording.expand node context
  cases node with
  | other kind source children => rw [uncommented]; rfl
  | leaf kind source => rw [uncommented]
  | _ =>
      rw [uncommented] at same ⊢
      exact same

namespace Walk

section Quiet

variable {run : Node → Step}

theorem sequence_note (quiet : ∀ note, run (.leaf .comment note) = Step.skip) (note : Source)
    (rest : List Node) (context : Context) :
    Step.sequence ((Node.leaf .comment note :: rest).map run) context =
      if context.stops then .ok context else Step.sequence (rest.map run) context := by
  rw [List.map_cons, quiet]
  rfl

theorem sequence_behind (node : Node) (shorter rest : List Node)
    (same : ∀ after : Context, after.stops = false →
      Step.sequence (shorter.map run) after = Step.sequence (rest.map run) after)
    (context : Context) : Step.sequence ((node :: shorter).map run) context =
      Step.sequence ((node :: rest).map run) context := by
  simp only [List.map_cons, Step.sequence]
  cases run node context with
  | error halt => rfl
  | ok after =>
      cases stops : after.stops with
      | true => simp [bind, Except.bind, stops]
      | false => simpa [bind, Except.bind, stops] using same after stops

theorem sequence_statements (quiet : ∀ note, run (.leaf .comment note) = Step.skip)
    (nodes : List Node) (context : Context) (goes : context.stops = false) :
    Step.sequence ((Node.statements nodes).map run) context =
      Step.sequence (nodes.map run) context := by
  induction nodes generalizing context with
  | nil => rfl
  | cons node rest ih =>
      by_cases comment : node.isComment
      · obtain ⟨note, rfl⟩ := Node.isComment_eq node comment
        rw [sequence_note quiet, goes]
        exact ih context goes
      · have kept : Node.statements (node :: rest) = node :: Node.statements rest := by
          simp [Node.statements, comment]
        rw [kept]
        exact sequence_behind node _ rest ih context

theorem sequence_spoken (quiet : ∀ note, run (.leaf .comment note) = Step.skip) (front : Bool)
    (nodes : List Node) (context : Context) (entered : front = false → context.stops = false) :
    Step.sequence ((Node.spoken front nodes).map run) context =
      Step.sequence (nodes.map run) context := by
  cases nodes with
  | nil => rfl
  | cons first rest =>
      rw [Node.spoken]
      split
      case isFalse =>
        exact sequence_behind first _ rest (sequence_statements quiet rest) context
      case isTrue dropped =>
        simp only [Bool.and_eq_true, Bool.not_eq_true', Bool.and_eq_false_iff, Bool.not_eq_false',
          List.isEmpty_iff] at dropped
        obtain ⟨comment, uncounted⟩ := dropped
        obtain ⟨note, rfl⟩ := Node.isComment_eq first comment
        rw [sequence_note quiet]
        cases stops : context.stops with
        | false => exact sequence_statements quiet rest context stops
        | true =>
            rcases uncounted with late | empty
            · rw [entered late] at stops
              cases stops
            · rw [empty]
              rfl

end Quiet

section Level

variable {strict : Bool} {iterations : Nat} {dispatch : Dispatch} {run : Node → Step}

theorem sequence_uncommented (quiet : ∀ note, run (.leaf .comment note) = Step.skip) (front : Bool)
    (nodes : List Node) (context : Context) (entered : front = false → context.stops = false) :
    Step.sequence ((Node.spoken front (nodes.map (Node.uncommented strict))).map run) context =
      Step.sequence (nodes.map fun node => run (node.uncommented strict)) context := by
  rw [sequence_spoken quiet front _ context entered, List.map_map]
  rfl

theorem not_stops (context : Context) (level : context.strict = strict) (lenient : strict = false) :
    context.stops = false := by
  simp only [Context.stops, level, lenient, Bool.false_and]

theorem succeeded_not_stops (context : Context) (succeeded : context.succeeded = true) :
    context.stops = false := by
  simp only [Context.stops, succeeded, Bool.not_true, Bool.and_false]

theorem andThen_congr (first second third : Step) (context : Context)
    (same : ∀ after, first context = .ok after → second after = third after) :
    first.andThen second context = first.andThen third context := by
  cases ran : first context with
  | error halt =>
      rw [Step.andThen_of_error _ _ _ _ ran, Step.andThen_of_error _ _ _ _ ran]
  | ok after =>
      rw [Step.andThen_of_ok _ _ _ _ ran, Step.andThen_of_ok _ _ _ _ ran]
      exact same after ran

theorem sequence_framed (framed : ∀ node, (run node).Keeps Context.Framed) (nodes : List Node) :
    (Step.sequence (nodes.map run)).Keeps Context.Framed :=
  (Context.framed_conserved.control ()).flow.sequence nodes (fun _ => run) fun node _ => framed node

theorem clausesWith_statements (nodes : List Node) :
    clausesWith run (Node.statements nodes) = clausesWith run nodes := by
  fun_induction clausesWith run nodes with
  | case1 => rfl
  | case2 source body rest ih =>
      change clausesWith run (.group .elseClause source body :: Node.statements rest) = _
      rw [clausesWith, ih]
  | case3 source condition body rest ih =>
      change clausesWith run (.branch .elifClause source condition body ::
        Node.statements rest) = _
      rw [clausesWith, ih]
  | case4 node rest noElse noElif ih =>
      by_cases comment : node.isComment
      · have dropped : Node.statements (node :: rest) = Node.statements rest := by
          simp [Node.statements, comment]
        rw [dropped, ih]
      · have kept : Node.statements (node :: rest) = node :: Node.statements rest := by
          simp [Node.statements, comment]
        rw [kept, clausesWith, ih] <;> assumption

theorem body_uncommented (quiet : ∀ note, run (.leaf .comment note) = Step.skip)
    (children : List Node) (context : Context) (goes : context.stops = false) :
    Step.sequence (((Node.statements (children.map (Node.uncommented strict))).filter fun child =>
        !child.isAlternative).map run) context =
      Step.sequence ((children.filter fun child => !child.isAlternative).map fun child =>
        run (child.uncommented strict)) context := by
  have swapped : (Node.statements (children.map (Node.uncommented strict))).filter
      (fun child => !child.isAlternative) =
      Node.statements ((children.filter fun child => !child.isAlternative).map
        (Node.uncommented strict)) := by
    simp only [Node.statements, List.filter_filter, List.filter_map, Function.comp_def,
      Node.uncommented_isAlternative, Node.uncommented_isComment, Bool.and_comm]
  rw [swapped, sequence_statements quiet _ context goes, List.map_map]
  rfl

theorem alternatives_uncommented (quiet : ∀ note, run (.leaf .comment note) = Step.skip)
    (framed : ∀ node, (run node).Keeps Context.Framed) (children : List Node) (context : Context)
    (level : context.strict = strict) :
    Step.alternatives (clausesWith run (children.map (Node.uncommented strict))) context =
      Step.alternatives (clausesWith (fun node => run (node.uncommented strict)) children)
        context := by
  induction children generalizing context with
  | nil => rfl
  | cons child rest ih =>
      rw [List.map_cons]
      cases child with
      | group kind source body =>
          rw [Node.uncommented, Node.uncommentedAll_eq_map]
          cases kind with
          | elseClause =>
              exact sequence_uncommented quiet strict body context (not_stops context level)
          | _ => exact ih context level
      | branch kind source condition body =>
          rw [Node.uncommented, Node.uncommentedAll_eq_map, Node.uncommentedAll_eq_map]
          cases kind with
          | ifStatement => exact ih context level
          | elifClause =>
              rw [clausesWith, clausesWith, List.map_map]
              refine andThen_congr _ _ _ context fun after ran => ?_
              by_cases succeeded : after.succeeded = true
              · simp only [if_pos succeeded]
                exact sequence_uncommented quiet false body after fun _ =>
                  succeeded_not_stops after succeeded
              · simp only [if_neg succeeded]
                have kept := sequence_framed (fun node => framed (node.uncommented strict))
                  condition context after ran
                exact ih after (kept.strict.trans level)
      | _ =>
          rw [Node.uncommented]
          exact ih context level

theorem accepts_uncommented (patterns : List Node) (body : List Step) (subject : String)
    (context : Context) :
    (Arm.mk (patterns.map (Node.uncommented strict)) body).accepts subject context =
      (Arm.mk patterns body).accepts subject context := by
  simp only [Arm.accepts, List.any_map, Function.comp_def, Node.uncommented_pattern]

theorem armsWith_uncommented (quiet : ∀ note, run (.leaf .comment note) = Step.skip)
    (items : List Node) (subject : String) (context : Context) (level : context.strict = strict) :
    chosen (armsWith run (items.map (Node.uncommented strict))) subject context =
      chosen (armsWith (fun node => run (node.uncommented strict)) items) subject context := by
  induction items with
  | nil => rfl
  | cons item rest ih =>
      rw [List.map_cons]
      cases item with
      | caseItem source patterns children =>
          rw [Node.uncommented, Node.uncommentedAll_eq_map, Node.uncommentedAll_eq_map]
          rw [chosen_caseItem, chosen_caseItem, accepts_uncommented, ih]
          by_cases accepted : (Arm.mk patterns []).accepts subject context
          · rw [if_pos accepted, if_pos accepted]
            exact sequence_uncommented quiet strict children context (not_stops context level)
          · rw [if_neg accepted, if_neg accepted]
      | _ =>
          rw [Node.uncommented]
          exact ih

theorem nodeWith_uncommented (quiet : ∀ note, run (.leaf .comment note) = Step.skip)
    (framed : ∀ node, (run node).Keeps Context.Framed) (whole : Node)
    (undefined : ∀ source name body, whole ≠ .function source name body) (context : Context)
    (level : context.strict = strict) :
    nodeWith iterations dispatch run (whole.uncommented strict) context =
      nodeWith iterations dispatch (fun node => run (node.uncommented strict)) whole context := by
  cases whole with
  | group kind source children =>
      rw [Node.uncommented, Node.uncommentedAll_eq_map]
      exact sequence_uncommented quiet strict children context (not_stops context level)
  | assignment source name value =>
      rw [Node.uncommented, Node.uncommentedSlot_eq_map, Node.uncommentedSlot_eq_map]
      cases name with
      | none => rfl
      | some name =>
          simp only [nodeWith, assign, Option.map_some, Node.uncommented_text,
            Node.uncommented_wording.expandSlot]
  | command source name arguments assignments =>
      rw [Node.uncommented, Node.uncommentedSlot_eq_map, Node.uncommentedAll_eq_map,
        Node.uncommentedAll_eq_map]
      cases name with
      | none => rfl
      | some name =>
          simp only [nodeWith, command, Option.map_some, Node.uncommented_text,
            Node.uncommented_wording.expandAll, List.isEmpty_map, List.filterMap_map, List.map_map,
            Function.comp_def, Node.uncommented_assignedName?]
  | branch kind source condition children =>
      rw [Node.uncommented, Node.uncommentedAll_eq_map, Node.uncommentedAll_eq_map,
        Node.spoken_false]
      simp only [nodeWith, List.map_map]
      refine andThen_congr _ _ _ context fun after ran => ?_
      by_cases succeeded : after.succeeded = true
      · simp only [if_pos succeeded]
        exact body_uncommented quiet children after (succeeded_not_stops after succeeded)
      · simp only [if_neg succeeded, clausesWith_statements]
        have kept := sequence_framed (fun node => framed (node.uncommented strict)) condition
          context after ran
        exact alternatives_uncommented quiet framed children after (kept.strict.trans level)
  | loop untilTrue source condition body =>
      rw [Node.uncommented, Node.uncommentedSlot_eq_map, Node.uncommentedAll_eq_map]
      simp only [nodeWith, List.map_map, Function.comp_def, slotWith_map]
  | forEach source binder values body =>
      rw [Node.uncommented, Node.uncommentedSlot_eq_map, Node.uncommentedSlot_eq_map,
        Node.uncommentedAll_eq_map]
      cases binder with
      | none => rfl
      | some binder =>
          simp only [nodeWith, iterate, Option.map_some, Node.uncommented_text, items,
            List.isEmpty_map, Node.uncommented_wording.expandAll, slotWith_map]
  | caseOf source subject items =>
      rw [Node.uncommented, Node.uncommentedSlot_eq_map, Node.uncommentedAll_eq_map]
      change chosen _ (Node.expandSlot (subject.map (Node.uncommented strict)) context) context =
        chosen _ (Node.expandSlot subject context) context
      rw [Node.uncommented_wording.expandSlot]
      exact armsWith_uncommented quiet items _ context level
  | function source name body => exact absurd rfl (undefined source name body)
  | subshell source children =>
      rw [Node.uncommented, Node.uncommentedAll_eq_map]
      simp only [nodeWith, Step.inScope]
      rw [sequence_uncommented quiet strict children context.pushScope
        (not_stops context.pushScope level)]
  | redirected source body redirects =>
      rw [Node.uncommented, Node.uncommentedSlot_eq_map]
      simp only [nodeWith, slotWith_map]
  | caseItem source patterns children => rw [Node.uncommented]; rfl
  | phrase kind source children => rw [Node.uncommented]; rfl
  | leaf kind source => rw [Node.uncommented]; rfl
  | other kind source children => rw [Node.uncommented]; rfl

end Level

section Uncommented

variable {strict : Bool} {host : Host} {limits : Limits}

-- The run `true` is that of the script without comments, in a context without comments.
def Uncommented (strict : Bool) (steps : Bool → Step) : Prop :=
  Recast id (Table.map (Node.uncommented strict)) (fun flag _ => flag = strict) steps

theorem uncommented_reads {α : Type} (read : Context → α)
    (same : ∀ context : Context,
      read (context.recast id (Table.map (Node.uncommented strict))) = read context) :
    Reads (Uncommented strict) read :=
  Recast.reads read fun context _ => same context

theorem uncommented_update (change : Context → Context)
    (strictness : ∀ context, (change context).strict = context.strict)
    (functions : ∀ context, (change context).functions = context.functions)
    (blind : ∀ context : Context,
      change (context.recast id (Table.map (Node.uncommented strict))) =
        (change context).recast id (Table.map (Node.uncommented strict))) :
    Uncommented strict fun _ => Step.update change :=
  Recast.update change strictness functions blind

theorem uncommented_control : Control (Uncommented strict) where
  skip := Recast.skip
  andThen := Recast.andThen
  succeeded := uncommented_reads _ fun _ => rfl
  stops := uncommented_reads _ fun _ => rfl

theorem uncommented_course (iterations : Nat) (dispatch : Dispatch)
    (dispatched : ∀ name texts, Uncommented strict fun _ => dispatch name texts) :
    Course (Uncommented strict) (Uncommented strict)
      (fun node => ∀ source name body, node ≠ .function source name body) (fun _ => iterations)
      (fun _ => dispatch) where
  toFlow := uncommented_control.flow
  word := fun _ _ node _ => uncommented_reads node.expand fun _ => rfl
  known := fun name => uncommented_reads _ fun context => by
    simp only [Table.contains, Context.recast, Table.get?_map, Option.isSome_map]
  positional := uncommented_reads _ fun _ => rfl
  bind := fun _ binder _ _ _ => Recast.setVariable binder.text
  setVariable := fun _ name _ _ => Recast.setVariable name.text
  define := fun source name body other => absurd rfl (other source (some name) (some body))
  malformed := fun node missing _ _ => Recast.faulty (.malformed (.at node missing))
  misnamed := fun name => uncommented_update _ (fun _ => rfl) (fun _ => rfl) fun _ => rfl
  loop := fun untilTrue condition body checked repeated =>
    uncommented_control.flow.rounds untilTrue iterations condition body
      (uncommented_update _ (fun _ => rfl) (fun _ => rfl) fun _ => rfl) checked repeated iterations
  inScope := Recast.inScope
  callAssigning := Recast.callAssigning
  dispatched := fun _ name _ _ _ texts => dispatched name.text texts

theorem uncommented_function (source : Source) (name body : Option Node) :
    Uncommented strict fun run =>
      if run then define ((Node.function source name body).uncommented strict)
        (name.map (Node.uncommented strict)) (body.map (Node.uncommented strict))
      else define (.function source name body) name body := by
  rw [Node.uncommented]
  cases name with
  | none => exact ⟨fun _ _ _ done => (by cases done), fun _ _ => rfl⟩
  | some name =>
      cases body with
      | none => exact ⟨fun _ _ _ done => (by cases done), fun _ _ => rfl⟩
      | some body =>
          constructor
          · intro before after level done
            cases done
            exact level
          · intro before _
            simp only [if_true, define, Option.map_some, Node.uncommented_text, Context.define,
              Context.recast, Bool.false_eq_true, if_false, Except.map, Table.insert_map]

theorem uncommented_bodies (room : Nat)
    (inner : ∀ fewer, room = fewer + 1 → ∀ body : Node, Uncommented strict fun run =>
      Shell.within ⟨host, .standard, limits⟩ fewer (if run then body.uncommented strict else body))
    (body : Node) : Uncommented strict fun run =>
      bodies ⟨host, .standard, limits⟩ room (if run then body.uncommented strict else body) := by
  cases room with
  | zero => exact Recast.faulty (.panicked overflowMessage)
  | succ fewer => exact inner fewer rfl body

theorem uncommented_dispatch (room : Nat)
    (inner : ∀ body : Node, Uncommented strict fun run =>
      bodies ⟨host, .standard, limits⟩ room (if run then body.uncommented strict else body))
    (name : String) (arguments : List String) : Uncommented strict fun _ =>
      dispatch ⟨host, .standard, limits⟩ (calling ⟨host, .standard, limits⟩ room) name
        arguments := by
  have called : ∀ body : Node, Uncommented strict fun run =>
      calling ⟨host, .standard, limits⟩ room name
        (if run then body.uncommented strict else body) arguments := fun body =>
    Recast.call limits (fun run _ => bodies ⟨host, .standard, limits⟩ room
      (if run then body.uncommented strict else body)) name body arguments (inner body)
  have performed : Uncommented strict fun _ => handle ⟨host, .standard, limits⟩ name arguments :=
    Recast.handle host limits name arguments
  constructor
  · intro before after level done
    cases found : before.functions.get? name with
    | some body =>
        simp only [dispatch, found] at done
        exact (called body).kept before after level done
    | none =>
        simp only [dispatch, found] at done
        exact performed.kept before after level done
  · intro before level
    have moved : (before.recast id (Table.map (Node.uncommented strict))).functions.get? name =
        (before.functions.get? name).map (Node.uncommented strict) := Table.get?_map _ _ name
    cases found : before.functions.get? name with
    | some body =>
        rw [found] at moved
        simp only [dispatch, found, moved, Option.map_some]
        exact (called body).same before level
    | none =>
        rw [found] at moved
        simp only [dispatch, found, moved, Option.map_none]
        exact performed.same before level

-- The step of a node in two moves: its parts lose their comments first, with the node as it is for
-- both runs, and then the sequences of the node itself do.
theorem uncommented_level (room : Nat)
    (dispatched : ∀ name texts, Uncommented strict fun _ =>
      dispatch ⟨host, .standard, limits⟩ (calling ⟨host, .standard, limits⟩ room) name texts)
    (whole : Node) (other : ∀ source name body, whole ≠ .function source name body)
    (inner : ∀ part ∈ whole.executed, Uncommented strict fun run =>
      Shell.within ⟨host, .standard, limits⟩ room (if run then part.uncommented strict else part)) :
    Uncommented strict fun run =>
      Shell.within ⟨host, .standard, limits⟩ room (if run then whole.uncommented strict else whole) := by
  have quiet : ∀ note, Shell.within ⟨host, .standard, limits⟩ room (.leaf .comment note) =
      Step.skip := by
    intro note
    rw [within_eq, node]
  have framed := within_framed ⟨host, .standard, limits⟩ (Registry.standard_wellBehaved host) room
  have opened := (uncommented_course limits.iterations _ dispatched).nodeWith whole other
    (fun run part => Shell.within ⟨host, .standard, limits⟩ room
      (if run then part.uncommented strict else part))
    (fun condition checked => uncommented_control.flow.sequence condition _ fun part member =>
      inner part (Node.executed_conditions whole part condition checked member))
    (uncommented_control.inOrder whole.prefixed _ fun part member =>
      inner part (Node.executed_prefixed whole part member)) inner
  constructor
  · intro before after level done
    simp only [Bool.false_eq_true, if_false] at done
    rw [within_eq_nodeWith] at done
    exact opened.kept before after level done
  · intro before level
    have same := opened.same before level
    simp only [Bool.false_eq_true, if_false, if_true] at same ⊢
    rw [within_eq_nodeWith _ _ whole, within_eq_nodeWith _ _ (whole.uncommented strict), ← same]
    exact nodeWith_uncommented quiet framed whole other _ level

theorem uncommented_within (room : Nat) (whole : Node) : Uncommented strict fun run =>
    Shell.within ⟨host, .standard, limits⟩ room (if run then whole.uncommented strict else whole) := by
  induction room using Nat.strongRecOn generalizing whole with
  | ind room fewest =>
      have dispatched := uncommented_dispatch room (uncommented_bodies room fun fewer less =>
        fewest fewer (by omega))
      induction whole using Node.induction_beneath with
      | step whole ih =>
          by_cases function : ∃ source name body, whole = .function source name body
          · obtain ⟨source, name, body, rfl⟩ := function
            refine cast (congrArg (Uncommented strict) ?_) (uncommented_function source name body)
            funext run
            cases run with
            | false => simp only [Bool.false_eq_true, if_false, within_eq, node]
            | true =>
                simp only [if_true, within_eq, Node.uncommented, node,
                  Node.uncommentedSlot_eq_map]
          · refine uncommented_level room dispatched whole (fun source name body same =>
              function ⟨source, name, body, same⟩) fun part member => ?_
            exact ih part (Node.beneath_executed part whole member)

end Uncommented

end Walk

def Context.SameButComments (one other : Context) : Prop :=
  other = { one with functions := other.functions } ∧ other.functions.names = one.functions.names

theorem Shell.run_uncommented (host : Host) (limits : Limits) (program : Node) (options : Options) :
    Shell.run ⟨host, .standard, limits⟩ (program.uncommented options.strict) options =
      (Shell.run ⟨host, .standard, limits⟩ program options).map
        (Context.recast id (Table.map (Node.uncommented options.strict))) :=
  (Walk.uncommented_within limits.recursion program).same options.start rfl

theorem Context.sameButComments_of_recast (change : Node → Node) (one other : Context)
    (same : one.recast id (Table.map change) = other.recast id (Table.map change)) :
    SameButComments one other := by
  have tables : one.functions.map change = other.functions.map change :=
    congrArg Context.functions same
  refine ⟨?_, by rw [← Table.names_map change, ← tables, Table.names_map]⟩
  have fields := congrArg (fun context : Context =>
    { context with functions := other.functions }) same
  exact fields.symm

theorem Outcome.agree_of_map {R : Context → Context → Prop} (change : Context → Context)
    (related : ∀ one other, change one = change other → R one other) (first second : Outcome)
    (same : first.map change = second.map change) : Agree R first second := by
  cases first with
  | ok one =>
      cases second with
      | ok other => exact related one other (Except.ok.inj same)
      | error halt => cases same
  | error halt =>
      cases second with
      | ok other => cases same
      | error other => exact Except.error.inj same

section Front

variable (shell : Shell) (source note : Source) (rest : List Node) (context : Context)

theorem Shell.sequence_note :
    shell.sequence (.leaf .comment note :: rest) context =
      if context.stops then .ok context else shell.sequence rest context :=
  Walk.sequence_note (fun other => by rw [Walk.within_eq, Walk.node]) note rest context

theorem Shell.walk_note (kind : GroupKind) :
    shell.walk (.group kind source (.leaf .comment note :: rest)) context =
      if context.stops then .ok context else shell.walk (.group kind source rest) context := by
  simp only [Shell.walk, Shell.within_group]
  exact shell.sequence_note note rest context

theorem Shell.walk_note_subshell :
    shell.walk (.subshell source (.leaf .comment note :: rest)) context =
      if context.stops then .ok context else shell.walk (.subshell source rest) context := by
  have walked : ∀ nodes, shell.walk (.subshell source nodes) context =
      Step.inScope (shell.sequence nodes) context := fun nodes => congrFun (shell.walk_eq _) context
  rw [walked, walked]
  simp only [Step.inScope, shell.sequence_note note rest context.pushScope]
  have stops : context.pushScope.stops = context.stops := rfl
  rw [stops]
  cases context.stops <;> rfl

theorem Shell.walk_note_case (subject : Option Node) (place : Source)
    (patterns front items : List Node) :
    let takes := Node.Takes context (Node.expandSlot subject context)
    let selection := fun children => Node.caseOf source subject
      (front ++ .caseItem place patterns children :: items)
    shell.walk (selection (.leaf .comment note :: rest)) context =
      if context.stops ∧ (∀ item ∈ front, ¬ takes item) ∧ takes (.caseItem place patterns rest) then
        .ok context
      else shell.walk (selection rest) context := by
  intro takes selection
  have walked : ∀ children, shell.walk (selection children) context = shell.taken
      ((front.find? fun item => takes item).or
        (if takes (.caseItem place patterns rest) then some (.caseItem place patterns children)
          else items.find? fun item => takes item)) context := by
    intro children
    rw [shell.walk_case, List.find?_append, List.find?_cons]
    have same : takes (.caseItem place patterns children) ↔ takes (.caseItem place patterns rest) :=
      Iff.rfl
    by_cases taken : takes (.caseItem place patterns rest)
    · rw [if_pos taken, decide_eq_true (same.mpr taken)]
    · rw [if_neg taken, decide_eq_false (mt same.mp taken)]
  rw [walked, walked]
  cases found : front.find? fun item => takes item with
  | some item =>
      have first : takes item := by simpa using List.find?_some found
      have skipped : ¬ (context.stops ∧ (∀ item ∈ front, ¬ takes item) ∧
          takes (.caseItem place patterns rest)) := fun selected =>
        selected.2.1 item (List.mem_of_find?_eq_some found) first
      rw [if_neg skipped]
      rfl
  | none =>
      have passed : ∀ item ∈ front, ¬ takes item := by simpa using found
      by_cases taken : takes (.caseItem place patterns rest)
      · simp only [if_pos taken, and_iff_left (And.intro passed taken)]
        exact shell.sequence_note note rest context
      · have skipped : ¬ (context.stops ∧ (∀ item ∈ front, ¬ takes item) ∧
            takes (.caseItem place patterns rest)) := fun selected => taken selected.2.2
        rw [if_neg taken, if_neg taken, if_neg skipped]

end Front

theorem comments_inert (host : Host) (limits : Limits) (options : Options) :
    (∀ plain noted, Node.Commented options.strict plain noted →
      Outcome.Agree Context.SameButComments
        (Shell.run ⟨host, .standard, limits⟩ plain options)
        (Shell.run ⟨host, .standard, limits⟩ noted options)) ∧
    ∀ (note : Source) (rest : List Node),
      let walk := Shell.walk ⟨host, .standard, limits⟩
      let run := fun program => Shell.run ⟨host, .standard, limits⟩ program options
      let noted := .leaf .comment note :: rest
      (∀ (whole : List Node → Node) (source : Source),
        (∃ kind, whole = .group kind source) ∨ whole = .subshell source →
        (∀ context : Context, walk (whole noted) context =
          if context.stops then .ok context else walk (whole rest) context) ∧
        run (whole noted) = run (whole rest)) ∧
      ∀ (source place : Source) (subject : Option Node) (patterns front items : List Node)
        (context : Context),
        let takes := Node.Takes context (Node.expandSlot subject context)
        let selection := fun children => Node.caseOf source subject
          (front ++ .caseItem place patterns children :: items)
        walk (selection noted) context =
          if context.stops ∧ (∀ item ∈ front, ¬ takes item) ∧
              takes (.caseItem place patterns rest) then
            .ok context
          else walk (selection rest) context := by
  constructor
  · intro plain noted commented
    have first := Shell.run_uncommented host limits plain options
    have second := Shell.run_uncommented host limits noted options
    rw [commented.same, second] at first
    exact Outcome.agree_of_map _ (Context.sameButComments_of_recast _) _ _ first.symm
  · intro note rest walk run noted
    constructor
    · intro whole source sequenced
      have front : ∀ context : Context, walk (whole noted) context =
          if context.stops then .ok context else walk (whole rest) context := by
        intro context
        rcases sequenced with ⟨kind, rfl⟩ | rfl
        · exact Shell.walk_note _ source note rest context kind
        · exact Shell.walk_note_subshell _ source note rest context
      have entered := front options.start
      rw [show options.start.stops = false from Walk.succeeded_not_stops options.start rfl]
        at entered
      exact ⟨front, entered⟩
    · intro source place subject patterns front items context
      exact Shell.walk_note_case _ source note rest context subject place patterns front items

theorem comments_inert_behind :
    let command := Node.ofCommand "echo" [.ofWord "hi"] []
    let note := Node.leaf .comment (.ofText "# note")
    let script := fun body => Node.ofGroup [.branch .ifStatement (.ofText "")
      [.ofCommand "false" [] []] [.ofCommand "true" [] [], .group .elseClause (.ofText "") body]]
    Node.Commented true (script [command]) (script [command, note]) ∧
      Outcome.Agree Context.SameButComments
        ((Shell.standard .void).run (script [command]) ⟨.simulate, .empty, true⟩)
        ((Shell.standard .void).run (script [command, note]) ⟨.simulate, .empty, true⟩) := by
  intro command note script
  have clause : Node.Commented true (.group .elseClause (.ofText "") [command])
      (.group .elseClause (.ofText "") [command, note]) :=
    .here false _ (.group .elseClause (.ofText "")) (.ofText "# note") [command] []
      fun _ => .inr (.inr rfl)
  have branch := Node.Commented.statement true _
    (.branch .ifStatement (.ofText "") [.ofCommand "false" [] []]) [.ofCommand "true" [] []] [] _ _
    clause
  have commented : Node.Commented true (script [command]) (script [command, note]) :=
    .statement false _ (.group .compound (.ofText "")) [] [] _ _ branch
  exact ⟨commented, (comments_inert .void .standard ⟨.simulate, .empty, true⟩).1 _ _ commented⟩

-- In front of that command it takes the strict run to its end before anything is printed.
theorem comment_in_front_stops :
    let command := Node.ofCommand "echo" [.ofWord "hi"] []
    let note := Node.leaf .comment (.ofText "# note")
    let script := fun body => Node.ofGroup [.branch .ifStatement (.ofText "")
      [.ofCommand "false" [] []] [.ofCommand "true" [] [], .group .elseClause (.ofText "") body]]
    ∃ plain noted,
      (Shell.standard .void).run (script [command]) ⟨.simulate, .empty, true⟩ = .ok plain ∧
      (Shell.standard .void).run (script [note, command]) ⟨.simulate, .empty, true⟩ = .ok noted ∧
      plain.exitCode = 0 ∧ plain.output = ["hi"] ∧ noted.exitCode = 1 ∧ noted.output = [] :=
  ⟨_, _, rfl, rfl, rfl, rfl, rfl, rfl⟩

end ShellWalk
