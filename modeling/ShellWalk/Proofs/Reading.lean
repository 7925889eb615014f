import ShellWalk.Proofs.Parts
import ShellWalk.Tree.Node

set_option autoImplicit false

namespace ShellWalk

namespace Json

def parts : Json → List Json
  | .array items => items
  | .object members => members.map (·.2)
  | _ => []

theorem size_part (whole part : Json) (member : part ∈ whole.parts) :
    sizeOf part < sizeOf whole := by
  cases whole with
  | array items =>
      have smaller := List.sizeOf_lt_of_mem (show part ∈ items from member)
      simp only [array.sizeOf_spec]
      omega
  | object members =>
      obtain ⟨entry, present, rfl⟩ := List.mem_map.mp member
      have smaller := List.sizeOf_lt_of_mem present
      rcases entry with ⟨name, value⟩
      simp only [Prod.mk.sizeOf_spec, object.sizeOf_spec] at smaller ⊢
      omega
  | _ => cases member

theorem induction_parts {P : Json → Prop}
    (step : ∀ whole : Json, (∀ part ∈ whole.parts, P part) → P whole) (json : Json) : P json :=
  step json fun part _member => induction_parts step part
termination_by sizeOf json
decreasing_by exact size_part json part _member

def values (name : String) (members : List (String × Json)) : List Json :=
  (members.filter (·.1 = name)).map (·.2)

theorem mem_values (name : String) (members : List (String × Json)) (value : Json) :
    value ∈ values name members ↔ (name, value) ∈ members := by
  simp only [values, List.mem_map, List.mem_filter, decide_eq_true_eq]
  constructor
  · rintro ⟨⟨key, value⟩, ⟨member, rfl⟩, rfl⟩
    exact member
  · intro member
    exact ⟨(name, value), ⟨member, rfl⟩, rfl⟩

theorem values_absent (name : String) (members : List (String × Json))
    (absent : name ∉ members.map (·.1)) : values name members = [] := by
  refine List.eq_nil_iff_forall_not_mem.mpr fun value member => absent ?_
  exact List.mem_map_of_mem (f := Prod.fst) ((mem_values name members value).mp member)

theorem values_append (name : String) (first second : List (String × Json)) :
    values name (first ++ second) = values name first ++ values name second := by
  simp only [values, List.filter_append, List.map_append]

end Json

namespace Tree

def Reading.of (value : Json) : Reading := ⟨value, ofJson? value, listOfJson? value⟩

theorem readings_eq_map (members : List (String × Json)) :
    readings members = members.map fun entry => (entry.1, Reading.of entry.2) := by
  induction members with
  | nil => rfl
  | cons entry rest ih => rw [readings, ih]; rfl

def sole {α : Type} (absent : Option α) : List (Option α) → Option α
  | [] => absent
  | [value] => value
  | _ => none

theorem sole_some {α : Type} (absent : Option α) (values : List (Option α)) (value : α)
    (here : sole absent values = some value) : absent = some value ∨ some value ∈ values := by
  match values with
  | [] => exact .inl here
  | [only] => exact .inr (List.mem_singleton.mpr here.symm)
  | _ :: _ :: _ => cases here

theorem sole_map {α β : Type} (f : α → β) (absent : Option α) (values : List (Option α)) :
    (sole absent values).map f = sole (absent.map f) (values.map (Option.map f)) := by
  match values with
  | [] => rfl
  | [_] => rfl
  | _ :: _ :: _ => rfl

theorem single?_readings {α : Type} (members : List (String × Json)) (name : String)
    (absent : Option α) (read : Reading → Option α) :
    single? (readings members) name absent read =
      sole absent ((Json.values name members).map fun value => read (.of value)) := by
  have named : (readings members).filter (·.1 = name) =
      (members.filter (·.1 = name)).map fun entry => (entry.1, Reading.of entry.2) := by
    rw [readings_eq_map, List.filter_map]
    rfl
  unfold single? Json.values
  rw [named]
  generalize members.filter (·.1 = name) = entries
  match entries with
  | [] => rfl
  | [_] => rfl
  | _ :: _ :: _ => rfl

def header? (members : List (String × Json)) : Option (String × Source) := do
  let kind ← text? (readings members) "type" none
  let text ← text? (readings members) "text" (some "")
  let startRow ← place? (readings members) "start_row"
  let startColumn ← place? (readings members) "start_col"
  let endRow ← place? (readings members) "end_row"
  let endColumn ← place? (readings members) "end_col"
  return (kind, ⟨⟨⟨startRow, startColumn⟩, ⟨endRow, endColumn⟩⟩, text⟩)

def children? (members : List (String × Json)) : Option (List Tree) :=
  sole (some []) ((Json.values "children" members).map listOfJson?)

theorem ofJson?_object (members : List (String × Json)) :
    ofJson? (.object members) = (header? members).bind fun header =>
      (children? members).map fun children =>
        .node header.1 header.2 children (fieldsOf (readings members)) := by
  have listed : single? (readings members) "children" (some []) (·.nodes?) = children? members :=
    single?_readings members "children" (some []) (·.nodes?)
  rw [ofJson?, assemble?, listed]
  simp only [header?, Option.bind_eq_bind, Option.bind_assoc, Option.pure_def, Option.bind_some,
    Option.map_eq_bind]
  rfl

theorem allOfJson?_eq_mapM (items : List Json) : allOfJson? items = items.mapM ofJson? := by
  induction items with
  | nil => rfl
  | cons item rest ih =>
      rw [allOfJson?, ih, List.mapM_cons]
      cases ofJson? item <;> cases rest.mapM ofJson? <;> rfl

theorem listOfJson?_map {α : Type} (view : Tree → α) (items : List Json) :
    (listOfJson? (.array items)).map (List.map view) =
      items.mapM fun item => (ofJson? item).map view := by
  rw [listOfJson?, allOfJson?_eq_mapM]
  induction items with
  | nil => rfl
  | cons item rest ih =>
      rw [List.mapM_cons, List.mapM_cons, ← ih]
      cases ofJson? item <;> cases rest.mapM ofJson? <;> rfl

theorem mem_allOfJson? (items : List Json) (trees : List Tree)
    (read : allOfJson? items = some trees) (tree : Tree) (member : tree ∈ trees) :
    ∃ item ∈ items, ofJson? item = some tree := by
  rw [allOfJson?_eq_mapM] at read
  induction items generalizing trees with
  | nil =>
      cases read
      cases member
  | cons item rest ih =>
      simp only [List.mapM_cons, Option.bind_eq_bind, Option.bind_eq_some_iff] at read
      obtain ⟨first, here, others, later, same⟩ := read
      cases same
      rcases List.mem_cons.mp member with rfl | deeper
      · exact ⟨item, List.mem_cons_self .., here⟩
      · obtain ⟨other, present, found⟩ := ih others later deeper
        exact ⟨other, List.mem_cons_of_mem _ present, found⟩

end Tree

def Field.trees : Field → List Tree
  | .one tree => [tree]
  | .many trees => trees
  | .other _ => []

namespace Tree

def treesOf (name : String) (fields : List (String × Field)) : List Tree :=
  ((Table.find name fields).map Field.trees).getD []

theorem toNodes_eq_map (trees : List Tree) : toNodes trees = trees.map toNode := by
  induction trees with
  | nil => rw [toNodes]; rfl
  | cons tree rest ih => rw [toNodes, ih]; rfl

theorem fieldNodes_eq_map (field : Field) : fieldNodes field = field.trees.map toNode := by
  cases field with
  | one tree => rw [fieldNodes]; rfl
  | many trees => rw [fieldNodes, toNodes_eq_map]; rfl
  | other value => rw [fieldNodes]; rfl

theorem many_slotsOf (name : String) (fields : List (String × Field)) :
    (slotsOf fields).many name = (treesOf name fields).map toNode := by
  induction fields with
  | nil => rw [slotsOf]; rfl
  | cons entry rest ih =>
      rcases entry with ⟨key, field⟩
      rw [slotsOf]
      by_cases same : key = name
      · simp only [Slots.many, treesOf, Table.find, if_pos same, Option.getD_some, Option.map_some,
          fieldNodes_eq_map]
      · simpa only [Slots.many, treesOf, Table.find, if_neg same] using ih

def treesIn (value : Json) : List Tree := (Reading.of value).field.trees

-- Of several members with one name the last counts, unless the name is reserved.
theorem treesOf_fieldsOf (name : String) (members : List (String × Json)) :
    treesOf name (fieldsOf (readings members)) =
      if name ∈ reserved then []
      else ((Json.values name members).getLast?.map treesIn).getD [] := by
  have found : Table.find name (fieldsOf (readings members)) =
      (((readings members).filter fun entry => !reserved.contains entry.1).map
        (fun entry => (entry.1, entry.2.field)) |>.filter (·.1 = name)).getLast?.map (·.2) := by
    rw [← Option.or_none (o := Option.map _ _)]
    exact Table.get?_insertAll_eq .empty _ name
  have named : ((((readings members).filter fun entry => !reserved.contains entry.1).map
      (fun entry => (entry.1, entry.2.field))).filter (·.1 = name)) =
      if name ∈ reserved then [] else
        (members.filter (·.1 = name)).map fun entry => (entry.1, (Reading.of entry.2).field) := by
    have kept : ∀ key : String, (decide (key = name) && !reserved.contains key) =
        (decide (key = name) && decide (name ∉ reserved)) := by
      intro key
      by_cases same : key = name
      · simp [same]
      · simp [same]
    rw [readings_eq_map, List.filter_map, List.filter_filter, List.filter_map, List.map_map]
    simp only [Function.comp_def, kept]
    by_cases special : name ∈ reserved
    · simp [special]
    · simp [special]
  rw [treesOf, found, named]
  by_cases special : name ∈ reserved
  · simp [special]
  · simp only [if_neg special, Json.values, List.getLast?_map, Option.map_map]
    rfl

theorem mem_treesIn (value : Json) (tree : Tree) (member : tree ∈ treesIn value) :
    ofJson? value = some tree ∨ ∃ trees, listOfJson? value = some trees ∧ tree ∈ trees := by
  unfold treesIn Reading.of Reading.field at member
  cases node : ofJson? value with
  | some single =>
      simp only [node, Field.trees, List.mem_singleton] at member
      exact .inl (by rw [member])
  | none =>
      cases nodes : listOfJson? value with
      | some trees =>
          simp only [node, nodes, Field.trees] at member
          exact .inr ⟨trees, rfl, member⟩
      | none => simp [node, nodes, Field.trees] at member

theorem mem_children? (members : List (String × Json)) (children : List Tree)
    (read : children? members = some children) (child : Tree) (member : child ∈ children) :
    ∃ value, ("children", value) ∈ members ∧ listOfJson? value = some children := by
  rcases sole_some _ _ _ read with absent | present
  · cases absent
    cases member
  · obtain ⟨value, listed, here⟩ := List.mem_map.mp present
    exact ⟨value, (Json.mem_values _ _ _).mp listed, here⟩

theorem treesIn_array (items : List Json) :
    (treesIn (.array items)).map toNode = (items.mapM Node.ofJson?).getD [] := by
  have listed : items.mapM Node.ofJson? =
      (listOfJson? (.array items)).map (List.map toNode) := (listOfJson?_map toNode items).symm
  rw [listed]
  unfold treesIn Reading.of Reading.field
  rw [ofJson?]
  · cases listOfJson? (.array items) <;> rfl
  · intro members same
    cases same

theorem mem_treesOf (name : String) (members : List (String × Json)) (tree : Tree)
    (member : tree ∈ treesOf name (fieldsOf (readings members))) :
    ∃ value, (name, value) ∈ members ∧ tree ∈ treesIn value := by
  rw [treesOf_fieldsOf] at member
  by_cases special : name ∈ reserved
  · simp [special] at member
  · rw [if_neg special] at member
    cases last : (Json.values name members).getLast? with
    | none => simp [last] at member
    | some value =>
        simp only [last, Option.map_some, Option.getD_some] at member
        exact ⟨value, (Json.mem_values name members value).mp (List.mem_of_getLast? last), member⟩

theorem toNode_object (members : List (String × Json)) :
    Node.ofJson? (.object members) = (header? members).bind fun header =>
      ((children? members).map (List.map toNode)).map fun children =>
        nodeOf header.1 header.2 children (slotsOf (fieldsOf (readings members))) := by
  rw [Node.ofJson?, ofJson?_object]
  cases header? members with
  | none => rfl
  | some header =>
      cases children? members with
      | none => rfl
      | some children =>
          simp only [Option.bind_some, Option.map_some, toNode, toNodes_eq_map]

def slotTable : List (String × List String) :=
  [("variable_assignment", ["name", "value"]), ("command", ["name", "argument"]),
   ("if_statement", ["condition"]), ("elif_clause", ["condition"]),
   ("while_statement", ["condition", "body"]), ("for_statement", ["variable", "value", "body"]),
   ("case_statement", ["value"]), ("case_item", ["value"]),
   ("function_definition", ["name", "body"]), ("redirected_statement", ["body", "redirect"])]

def slotNames (kind : String) : List String := (Table.find kind slotTable).getD []

theorem slotNames_unreserved (kind name : String) (member : name ∈ slotNames kind) :
    name ∉ reserved := by
  have table : ∀ entry ∈ slotTable, ∀ name ∈ entry.2, name ∉ reserved := by decide
  unfold slotNames at member
  cases found : Table.find kind slotTable with
  | none => simp [found] at member
  | some names =>
      rw [found] at member
      exact table (kind, names) (Table.find_mem kind names slotTable found) name member

theorem slotNames_branch (kind : String) (branch : BranchKind)
    (found : BranchKind.ofName? kind = some branch) : slotNames kind = ["condition"] := by
  unfold BranchKind.ofName? at found
  have same := List.find?_some found
  rw [← of_decide_eq_true same]
  cases branch <;> rfl

theorem nodeOf_congr (kind : String) (source : Source) (children : List Node) (slots others : Slots)
    (same : ∀ name ∈ slotNames kind, slots.many name = others.many name) :
    nodeOf kind source children slots = nodeOf kind source children others := by
  have one : ∀ name ∈ slotNames kind, slots.one name = others.one name := by
    intro name member
    rw [Slots.one, Slots.one, same name member]
  unfold nodeOf
  split
  · rfl
  · next branch noGroup found =>
      rw [same "condition" (by simp [slotNames_branch kind branch found])]
  · rfl
  · rfl
  by_cases assignment : kind = "variable_assignment"
  · rw [assignment] at one same
    rw [if_pos assignment, if_pos assignment, one "name" (by decide), one "value" (by decide)]
  rw [if_neg assignment, if_neg assignment]
  by_cases command : kind = "command"
  · rw [command] at one same
    rw [if_pos command, if_pos command, one "name" (by decide), same "argument" (by decide)]
  rw [if_neg command, if_neg command]
  by_cases loop : kind = "while_statement"
  · rw [loop] at one same
    rw [if_pos loop, if_pos loop, same "condition" (by decide), one "body" (by decide)]
  rw [if_neg loop, if_neg loop]
  by_cases forEach : kind = "for_statement"
  · rw [forEach] at one same
    rw [if_pos forEach, if_pos forEach, one "variable" (by decide), same "value" (by decide),
      one "body" (by decide)]
  rw [if_neg forEach, if_neg forEach]
  by_cases caseOf : kind = "case_statement"
  · rw [caseOf] at one same
    rw [if_pos caseOf, if_pos caseOf, one "value" (by decide)]
  rw [if_neg caseOf, if_neg caseOf]
  by_cases caseItem : kind = "case_item"
  · rw [caseItem] at one same
    rw [if_pos caseItem, if_pos caseItem, same "value" (by decide)]
  rw [if_neg caseItem, if_neg caseItem]
  by_cases function : kind = "function_definition"
  · rw [function] at one same
    rw [if_pos function, if_pos function, one "name" (by decide), one "body" (by decide)]
  rw [if_neg function, if_neg function]
  by_cases subshell : kind = "subshell"
  · rw [if_pos subshell, if_pos subshell]
  rw [if_neg subshell, if_neg subshell]
  by_cases redirected : kind = "redirected_statement"
  · rw [redirected] at one same
    rw [if_pos redirected, if_pos redirected, one "body" (by decide), same "redirect" (by decide)]
  rw [if_neg redirected, if_neg redirected]

theorem many_fieldsOf (name : String) (members : List (String × Json)) :
    (slotsOf (fieldsOf (readings members))).many name =
      if name ∈ reserved then []
      else ((Json.values name members).getLast?.map fun value =>
        (treesIn value).map toNode).getD [] := by
  rw [many_slotsOf, treesOf_fieldsOf]
  by_cases special : name ∈ reserved
  · simp [special]
  · rw [if_neg special, if_neg special]
    cases (Json.values name members).getLast? <;> rfl

theorem Slots.many_mem (slots : Slots) (name : String) (node : Node)
    (member : node ∈ slots.many name) : ∃ slot ∈ slots, node ∈ slot.2 := by
  induction slots with
  | nil => cases member
  | cons slot rest ih =>
      rcases slot with ⟨key, nodes⟩
      by_cases same : key = name
      · simp only [Slots.many, Table.find, if_pos same, Option.getD_some] at member
        exact ⟨_, List.mem_cons_self .., member⟩
      · simp only [Slots.many, Table.find, if_neg same] at member
        obtain ⟨later, present, here⟩ := ih member
        exact ⟨later, List.mem_cons_of_mem _ present, here⟩

theorem nodeOf_parts (kind : String) (source : Source) (children : List Node) (slots : Slots)
    (part : Node) (member : part ∈ (nodeOf kind source children slots).parts) :
    part ∈ children ∨ ∃ name, part ∈ slots.many name := by
  have one : ∀ name, part ∈ (slots.one name).toList → part ∈ slots.many name := by
    intro name here
    exact List.mem_of_mem_head? (Option.mem_toList.mp here)
  revert member
  fun_cases nodeOf kind source children slots <;>
    simp only [Node.parts, List.mem_append, List.mem_filter] <;> grind

theorem nodeOf_prefixed (kind : String) (source : Source) (children : List Node) (slots : Slots)
    (part : Node) (member : part ∈ (nodeOf kind source children slots).prefixed) :
    part.isAssignment = true := by
  revert member
  fun_cases nodeOf kind source children slots <;>
    simp only [Node.prefixed, List.mem_filter, List.not_mem_nil, false_imp_iff, and_imp, imp_self,
      implies_true]

end Tree

end ShellWalk
