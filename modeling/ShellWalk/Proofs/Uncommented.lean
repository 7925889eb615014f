import ShellWalk.Proofs.Wording

set_option autoImplicit false

namespace ShellWalk.Node

def isComment : Node → Bool
  | .leaf .comment _ => true
  | _ => false

theorem isComment_eq (node : Node) (comment : node.isComment = true) :
    ∃ note, node = .leaf .comment note := by
  cases node with
  | leaf kind source =>
      cases kind with
      | comment => exact ⟨source, rfl⟩
      | _ => cases comment
  | _ => cases comment

def statements (nodes : List Node) : List Node := nodes.filter fun node => !node.isComment

-- The statements of a sequence, behind its comment in front where that one counts. A sequence of
-- nothing but comments is empty in any case.
def spoken (front : Bool) : List Node → List Node
  | [] => []
  | first :: rest =>
      if first.isComment && !(front && !(statements rest).isEmpty) then statements rest
      else first :: statements rest

mutual

def uncommented (strict : Bool) : Node → Node
  | .group kind source children =>
      .group kind source (spoken strict (uncommentedAll strict children))
  | .assignment source name value =>
      .assignment source (uncommentedSlot strict name) (uncommentedSlot strict value)
  | .command source name arguments assignments =>
      .command source (uncommentedSlot strict name) (uncommentedAll strict arguments)
        (uncommentedAll strict assignments)
  | .branch kind source condition children =>
      .branch kind source (uncommentedAll strict condition)
        (spoken false (uncommentedAll strict children))
  | .loop untilTrue source condition body =>
      .loop untilTrue source (uncommentedAll strict condition) (uncommentedSlot strict body)
  | .forEach source binder values body =>
      .forEach source (uncommentedSlot strict binder) (uncommentedAll strict values)
        (uncommentedSlot strict body)
  | .caseOf source subject items =>
      .caseOf source (uncommentedSlot strict subject) (uncommentedAll strict items)
  | .caseItem source patterns children =>
      .caseItem source (uncommentedAll strict patterns)
        (spoken strict (uncommentedAll strict children))
  | .function source name body =>
      .function source (uncommentedSlot strict name) (uncommentedSlot strict body)
  | .subshell source children =>
      .subshell source (spoken strict (uncommentedAll strict children))
  | .redirected source body redirects =>
      .redirected source (uncommentedSlot strict body) (uncommentedAll strict redirects)
  | .phrase kind source children => .phrase kind source (uncommentedAll strict children)
  | .leaf kind source => .leaf kind source
  | .other kind source children => .other kind source (uncommentedAll strict children)

def uncommentedAll (strict : Bool) : List Node → List Node
  | [] => []
  | node :: rest => uncommented strict node :: uncommentedAll strict rest

def uncommentedSlot (strict : Bool) : Option Node → Option Node
  | none => none
  | some node => some (uncommented strict node)

end

inductive Body : Bool → (List Node → Node) → Prop where
  | group (kind : GroupKind) (source : Source) : Body false (.group kind source)
  | subshell (source : Source) : Body false (.subshell source)
  | caseItem (source : Source) (patterns : List Node) : Body false (.caseItem source patterns)
  | branch (kind : BranchKind) (source : Source) (condition : List Node) :
      Body true (.branch kind source condition)

inductive Row : (List Node → Node) → Prop where
  | argument (source : Source) (name : Option Node) (assignments : List Node) :
      Row fun nodes => .command source name nodes assignments
  | assignment (source : Source) (name : Option Node) (arguments : List Node) :
      Row fun nodes => .command source name arguments nodes
  | branchCondition (kind : BranchKind) (source : Source) (children : List Node) :
      Row fun nodes => .branch kind source nodes children
  | loopCondition (untilTrue : Bool) (source : Source) (body : Option Node) :
      Row fun nodes => .loop untilTrue source nodes body
  | value (source : Source) (binder body : Option Node) :
      Row fun nodes => .forEach source binder nodes body
  | item (source : Source) (subject : Option Node) : Row fun nodes => .caseOf source subject nodes
  | pattern (source : Source) (children : List Node) :
      Row fun nodes => .caseItem source nodes children
  | redirect (source : Source) (body : Option Node) :
      Row fun nodes => .redirected source body nodes
  | phrase (kind : PhraseKind) (source : Source) : Row (.phrase kind source)
  | other (kind : String) (source : Source) : Row (.other kind source)

inductive Slot : (Option Node → Node) → Prop where
  | assignee (source : Source) (value : Option Node) :
      Slot fun slot => .assignment source slot value
  | assigned (source : Source) (name : Option Node) :
      Slot fun slot => .assignment source name slot
  | commandName (source : Source) (arguments assignments : List Node) :
      Slot fun slot => .command source slot arguments assignments
  | loopBody (untilTrue : Bool) (source : Source) (condition : List Node) :
      Slot fun slot => .loop untilTrue source condition slot
  | binder (source : Source) (values : List Node) (body : Option Node) :
      Slot fun slot => .forEach source slot values body
  | forEachBody (source : Source) (binder : Option Node) (values : List Node) :
      Slot fun slot => .forEach source binder values slot
  | subject (source : Source) (items : List Node) : Slot fun slot => .caseOf source slot items
  | functionName (source : Source) (body : Option Node) :
      Slot fun slot => .function source slot body
  | functionBody (source : Source) (name : Option Node) :
      Slot fun slot => .function source name slot
  | redirected (source : Source) (redirects : List Node) :
      Slot fun slot => .redirected source slot redirects

-- One comment put in at any place of any sequence, except in front of the statements of one that
-- may be entered after a failure when the walk is strict.
inductive Commented (strict : Bool) : Node → Node → Prop where
  | here (checked : Bool) (holder : List Node → Node) (holds : Body checked holder) (note : Source)
      (before after : List Node)
      (placed : strict = true → checked = true ∨ before ≠ [] ∨ after = []) :
      Commented strict (holder (before ++ after)) (holder (before ++ .leaf .comment note :: after))
  | statement (checked : Bool) (holder : List Node → Node) (holds : Body checked holder)
      (before after : List Node) (plain noted : Node) (inner : Commented strict plain noted) :
      Commented strict (holder (before ++ plain :: after)) (holder (before ++ noted :: after))
  | row (holder : List Node → Node) (holds : Row holder) (before after : List Node)
      (plain noted : Node) (inner : Commented strict plain noted) :
      Commented strict (holder (before ++ plain :: after)) (holder (before ++ noted :: after))
  | slot (holder : Option Node → Node) (holds : Slot holder) (plain noted : Node)
      (inner : Commented strict plain noted) :
      Commented strict (holder (some plain)) (holder (some noted))

section Uncommented

variable {strict : Bool}

theorem uncommentedAll_eq_map (nodes : List Node) :
    uncommentedAll strict nodes = nodes.map (uncommented strict) := by
  induction nodes with
  | nil => rw [uncommentedAll]; rfl
  | cons node rest ih => rw [uncommentedAll, ih]; rfl

theorem uncommentedSlot_eq_map (slot : Option Node) :
    uncommentedSlot strict slot = slot.map (uncommented strict) := by
  cases slot with
  | none => rw [uncommentedSlot]; rfl
  | some node => rw [uncommentedSlot]; rfl

theorem uncommented_source (node : Node) : (uncommented strict node).source = node.source := by
  cases node <;> rw [uncommented] <;> rfl

theorem uncommented_text (node : Node) : (uncommented strict node).text = node.text := by
  rw [text, text, uncommented_source]

theorem uncommented_isComment (node : Node) :
    (uncommented strict node).isComment = node.isComment := by
  cases node <;> rw [uncommented] <;> rfl

theorem uncommented_isAlternative (node : Node) :
    (uncommented strict node).isAlternative = node.isAlternative := by
  cases node with
  | group kind source children => rw [uncommented]; cases kind <;> rfl
  | branch kind source condition children => rw [uncommented]; cases kind <;> rfl
  | _ => rw [uncommented] <;> rfl

theorem uncommented_isVariableName (node : Node) :
    (uncommented strict node).isVariableName = node.isVariableName := by
  cases node <;> rw [uncommented] <;> rfl

theorem uncommented_assignedName? (node : Node) :
    (uncommented strict node).assignedName? = node.assignedName? := by
  cases node with
  | assignment source name value =>
      rw [uncommented, uncommentedSlot_eq_map]
      cases name with
      | none => rfl
      | some name => exact congrArg some (uncommented_text name)
  | _ => rw [uncommented] <;> rfl

-- Words have the same texts: sequences stand in them only where nothing is expanded.
theorem uncommented_wording : Wording (uncommented strict) where
  text := uncommented_text
  isVariableName := uncommented_isVariableName
  phrase := fun kind source children => ⟨source, rfl, by rw [uncommented, uncommentedAll_eq_map]⟩
  single := by
    intro look node single
    cases node with
    | phrase kind source children => exact absurd rfl (single kind source children)
    | _ => rw [uncommented] <;> rfl

theorem spoken_false (nodes : List Node) : spoken false nodes = statements nodes := by
  cases nodes with
  | nil => rfl
  | cons first rest =>
      by_cases comment : first.isComment
      · simp [spoken, statements, comment]
      · simp [spoken, statements, comment]

theorem spoken_insert (front : Bool) (note : Source) (before after : List Node)
    (placed : front = true → before ≠ [] ∨ after = []) :
    spoken front (before ++ .leaf .comment note :: after) = spoken front (before ++ after) := by
  have absent : ∀ nodes : List Node, statements (nodes ++ .leaf .comment note :: after) =
      statements (nodes ++ after) := by
    intro nodes
    simp [statements, isComment]
  cases before with
  | cons first rest => simp only [List.cons_append, spoken, absent]
  | nil =>
      cases front with
      | false => rw [spoken_false, spoken_false, absent]
      | true =>
          rcases placed rfl with some | rfl
          · exact absurd rfl some
          · rfl

theorem uncommented_body (checked : Bool) (holder : List Node → Node) (holds : Body checked holder)
    (nodes others : List Node)
    (same : spoken (strict && !checked) (nodes.map (uncommented strict)) =
      spoken (strict && !checked) (others.map (uncommented strict))) :
    uncommented strict (holder nodes) = uncommented strict (holder others) := by
  cases holds <;>
    simp only [Bool.not_false, Bool.not_true, Bool.and_true, Bool.and_false] at same <;>
    rw [uncommented, uncommented, uncommentedAll_eq_map nodes, uncommentedAll_eq_map others, same]

theorem uncommented_row (holder : List Node → Node) (holds : Row holder) (nodes others : List Node)
    (same : nodes.map (uncommented strict) = others.map (uncommented strict)) :
    uncommented strict (holder nodes) = uncommented strict (holder others) := by
  cases holds <;>
    rw [uncommented, uncommented, uncommentedAll_eq_map nodes, uncommentedAll_eq_map others, same]

theorem uncommented_slot (holder : Option Node → Node) (holds : Slot holder) (plain noted : Node)
    (same : uncommented strict plain = uncommented strict noted) :
    uncommented strict (holder (some plain)) = uncommented strict (holder (some noted)) := by
  cases holds <;>
    rw [uncommented, uncommented, uncommentedSlot, uncommentedSlot, same]

theorem Commented.same (plain noted : Node) (commented : Commented strict plain noted) :
    uncommented strict plain = uncommented strict noted := by
  induction commented with
  | here checked holder holds note before after placed =>
      refine uncommented_body checked holder holds _ _ ?_
      rw [List.map_append, List.map_append, List.map_cons, uncommented]
      refine (spoken_insert _ note _ _ fun counts => ?_).symm
      rw [Bool.and_eq_true, Bool.not_eq_true'] at counts
      rcases placed counts.1 with success | some | none
      · rw [success] at counts
        cases counts.2
      · exact .inl fun empty => some (List.map_eq_nil_iff.mp empty)
      · exact .inr (by rw [none]; rfl)
  | statement checked holder holds before after plain noted inner ih =>
      refine uncommented_body checked holder holds _ _ ?_
      rw [List.map_append, List.map_append, List.map_cons, List.map_cons, ih]
  | row holder holds before after plain noted inner ih =>
      refine uncommented_row holder holds _ _ ?_
      rw [List.map_append, List.map_append, List.map_cons, List.map_cons, ih]
  | slot holder holds plain noted inner ih => exact uncommented_slot holder holds _ _ ih

end Uncommented

end ShellWalk.Node
