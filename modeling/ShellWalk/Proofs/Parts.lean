import ShellWalk.Node.Basic

set_option autoImplicit false

namespace ShellWalk.Node

def parts : Node → List Node
  | .group _ _ children => children
  | .assignment _ name value => name.toList ++ value.toList
  | .command _ name arguments assignments => name.toList ++ arguments ++ assignments
  | .branch _ _ condition children => condition ++ children
  | .loop _ _ condition body => condition ++ body.toList
  | .forEach _ binder values body => binder.toList ++ values ++ body.toList
  | .caseOf _ subject items => subject.toList ++ items
  | .caseItem _ patterns children => patterns ++ children
  | .function _ name body => name.toList ++ body.toList
  | .subshell _ children => children
  | .redirected _ body redirects => body.toList ++ redirects
  | .phrase _ _ children => children
  | .leaf _ _ => []
  | .other _ _ children => children

inductive Inside (inner : Node) : Node → Prop where
  | self : Inside inner inner
  | part (whole part : Node) (member : part ∈ whole.parts) (deeper : Inside inner part) :
      Inside inner whole

def Beneath (inner whole : Node) : Prop := ∃ part ∈ whole.parts, Inside inner part

def clauseParts : Node → List Node
  | .group .elseClause _ children => children
  | .branch .elifClause _ condition children => condition ++ children
  | child => [child]

def itemParts : Node → List Node
  | .caseItem _ _ children => children
  | _ => []

def itemPatterns : Node → List Node
  | .caseItem _ patterns _ => patterns
  | _ => []

-- The nodes that a node runs. Of a function this is the body that calls of it will run.
def executed : Node → List Node
  | .group _ _ children => children
  | .command _ _ _ assignments => assignments
  | .branch _ _ condition children => condition ++ children.flatMap clauseParts
  | .loop _ _ condition body => condition ++ body.toList
  | .forEach _ _ _ body => body.toList
  | .caseOf _ _ items => items.flatMap itemParts
  | .function _ _ body => body.toList
  | .subshell _ children => children
  | .redirected _ body _ => body.toList
  | _ => []

def words : Node → List Node
  | .assignment _ _ value => value.toList
  | .command _ _ arguments _ => arguments
  | .forEach _ _ values _ => values
  | .caseOf _ subject items => subject.toList ++ items.flatMap itemPatterns
  | _ => []

def condition : Node → List Node
  | .branch _ _ condition _ => condition
  | .loop _ _ condition _ => condition
  | _ => []

def clauseConditions : Node → List (List Node)
  | .branch .elifClause _ condition _ => [condition]
  | _ => []

def conditions : Node → List (List Node)
  | .branch _ _ condition children => condition :: children.flatMap clauseConditions
  | .loop _ _ condition _ => [condition]
  | _ => []

def prefixed : Node → List Node
  | .command _ _ _ assignments => assignments
  | _ => []

theorem inside_trans (inner middle whole : Node) (first : Inside inner middle)
    (second : Inside middle whole) : Inside inner whole := by
  induction second with
  | self => exact first
  | part whole part member _ ih => exact .part whole part member ih

theorem inside_parts {Q : Node → Prop} (whole : Node) (here : Q whole)
    (inner : ∀ part ∈ whole.parts, ∀ node, Inside node part → Q node) (node : Node)
    (inside : Inside node whole) : Q node := by
  cases inside with
  | self => exact here
  | part _ part member deeper => exact inner part member node deeper

theorem forall_inside_iff {Q : Node → Prop} (whole : Node) :
    (∀ inner, Inside inner whole → Q inner) ↔
      Q whole ∧ ∀ part ∈ whole.parts, ∀ inner, Inside inner part → Q inner := by
  constructor
  · intro holds
    exact ⟨holds whole .self, fun part member inner deeper =>
      holds inner (.part whole part member deeper)⟩
  · rintro ⟨here, inner⟩
    exact inside_parts whole here inner

theorem exists_inside_iff {Q : Node → Prop} (whole : Node) :
    (∃ inner, Inside inner whole ∧ Q inner) ↔
      Q whole ∨ ∃ part ∈ whole.parts, ∃ inner, Inside inner part ∧ Q inner := by
  constructor
  · rintro ⟨inner, inside, holds⟩
    cases inside with
    | self => exact .inl holds
    | part _ part member deeper => exact .inr ⟨part, member, inner, deeper, holds⟩
  · rintro (holds | ⟨part, member, inner, deeper, holds⟩)
    · exact ⟨whole, .self, holds⟩
    · exact ⟨inner, .part whole part member deeper, holds⟩

theorem beneath_part (part whole : Node) (member : part ∈ whole.parts) : Beneath part whole :=
  ⟨part, member, .self⟩

theorem beneath_inside (inner whole : Node) (beneath : Beneath inner whole) :
    Inside inner whole := by
  obtain ⟨part, member, deeper⟩ := beneath
  exact .part whole part member deeper

theorem beneath_part_of_part (inner middle whole : Node) (first : inner ∈ middle.parts)
    (second : middle ∈ whole.parts) : Beneath inner whole :=
  ⟨middle, second, .part middle inner first .self⟩

theorem inside_clauseParts (child part : Node) (member : part ∈ child.clauseParts) :
    Inside part child := by
  have deeper : part ∈ child.parts → Inside part child := fun here => .part child part here .self
  fun_cases clauseParts child with
  | case1 source children => exact deeper member
  | case2 source condition children => exact deeper member
  | case3 child _ _ =>
      have same : part = child := by simpa only [clauseParts, List.mem_singleton] using member
      subst same
      exact .self

theorem beneath_executed (part whole : Node) (member : part ∈ whole.executed) :
    Beneath part whole := by
  have here : part ∈ whole.parts → Beneath part whole := beneath_part part whole
  cases whole with
  | branch kind source condition children =>
      rcases List.mem_append.mp member with checked | ran
      · exact here (List.mem_append_left _ checked)
      · obtain ⟨child, present, deeper⟩ := List.mem_flatMap.mp ran
        exact ⟨child, List.mem_append_right _ present, inside_clauseParts child part deeper⟩
  | caseOf source subject items =>
      obtain ⟨item, present, deeper⟩ := List.mem_flatMap.mp member
      cases item with
      | caseItem place patterns children =>
          exact beneath_part_of_part part (.caseItem place patterns children) _
            (List.mem_append_right _ deeper) (List.mem_append_right _ present)
      | _ => cases deeper
  | _ => exact here (by simp_all [executed, parts])

theorem beneath_words (part whole : Node) (member : part ∈ whole.words) : Beneath part whole := by
  have here : part ∈ whole.parts → Beneath part whole := beneath_part part whole
  cases whole with
  | caseOf source subject items =>
      rcases List.mem_append.mp member with read | matched
      · exact here (List.mem_append_left _ read)
      · obtain ⟨item, present, deeper⟩ := List.mem_flatMap.mp matched
        cases item with
        | caseItem place patterns children =>
            exact beneath_part_of_part part (.caseItem place patterns children) _
              (List.mem_append_left _ deeper) (List.mem_append_right _ present)
        | _ => cases deeper
  | _ => exact here (by simp_all [words, parts])

theorem executed_conditions (whole part : Node) (condition : List Node)
    (checked : condition ∈ whole.conditions) (member : part ∈ condition) :
    part ∈ whole.executed := by
  cases whole with
  | branch kind source first children =>
      rcases List.mem_cons.mp checked with same | later
      · exact List.mem_append_left _ (same ▸ member)
      · obtain ⟨child, present, clause⟩ := List.mem_flatMap.mp later
        refine List.mem_append_right _ (List.mem_flatMap.mpr ⟨child, present, ?_⟩)
        fun_cases clauseConditions child with
        | case1 place condition' body =>
            have same := List.mem_singleton.mp clause
            exact List.mem_append_left _ (same ▸ member)
        | case2 child other =>
            rw [clauseConditions] at clause
            · cases clause
            · exact other
  | loop untilTrue source first body =>
      have same := List.mem_singleton.mp checked
      exact List.mem_append_left _ (same ▸ member)
  | _ => cases checked

theorem executed_prefixed (whole part : Node) (member : part ∈ whole.prefixed) :
    part ∈ whole.executed := by
  cases whole with
  | command source name arguments assignments => exact member
  | _ => cases member

theorem size_mem_toList (part : Node) (slot : Option Node) (member : part ∈ slot.toList) :
    sizeOf part < sizeOf slot := by
  cases slot with
  | none => simp at member
  | some filled =>
      have same : part = filled := by simpa using member
      subst same
      simp only [Option.some.sizeOf_spec]
      omega

theorem size_part (whole part : Node) (member : part ∈ whole.parts) :
    sizeOf part < sizeOf whole := by
  have inList : ∀ nodes : List Node, part ∈ nodes → sizeOf part < sizeOf nodes :=
    fun _ here => List.sizeOf_lt_of_mem here
  have inSlot : ∀ slot : Option Node, part ∈ slot.toList → sizeOf part < sizeOf slot :=
    size_mem_toList part
  cases whole <;> simp only [parts, List.mem_append, List.not_mem_nil] at member <;>
    simp <;> grind

theorem size_inside (inner whole : Node) (inside : Inside inner whole) :
    sizeOf inner ≤ sizeOf whole := by
  induction inside with
  | self => exact Nat.le_refl _
  | part whole part member _ ih =>
      exact Nat.le_trans ih (Nat.le_of_lt (size_part whole part member))

theorem size_beneath (inner whole : Node) (beneath : Beneath inner whole) :
    sizeOf inner < sizeOf whole := by
  obtain ⟨part, member, deeper⟩ := beneath
  exact Nat.lt_of_le_of_lt (size_inside inner part deeper) (size_part whole part member)

theorem induction_beneath {P : Node → Prop}
    (step : ∀ whole : Node, (∀ inner, Beneath inner whole → P inner) → P whole) (node : Node) :
    P node :=
  step node fun inner _beneath => induction_beneath step inner
termination_by sizeOf node
decreasing_by exact size_beneath inner node _beneath

end ShellWalk.Node
