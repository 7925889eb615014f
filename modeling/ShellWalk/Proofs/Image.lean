import ShellWalk.Proofs.Reading

set_option autoImplicit false

namespace ShellWalk

def SaysUntil (text : String) : Prop :=
  ∃ blanks rest : List Char, text.toList = blanks ++ "until".toList ++ rest ∧
    (∀ c ∈ blanks, Text.isBlank c = true) ∧ ∀ c ∈ rest.head?, Text.isBlank c = true

namespace Node

def grammar : List String :=
  ["program", "variable_assignment", "command", "if_statement", "elif_clause", "else_clause",
   "while_statement", "for_statement", "case_statement", "case_item", "function_definition",
   "compound_statement", "do_group", "subshell", "pipeline", "list", "redirected_statement",
   "comment", "word", "number", "raw_string", "string", "string_content", "command_name",
   "variable_name", "special_variable_name", "simple_expansion", "expansion", "concatenation"]

structure Consistent (node : Node) : Prop where
  assigning : ∀ part ∈ node.prefixed, part.isAssignment = true
  announced : ∀ untilTrue source condition body, node = .loop untilTrue source condition body →
    (untilTrue = true ↔ SaysUntil source.text)
  unknown : ∀ kind source children, node = .other kind source children → kind ∉ grammar

def Readable (node : Node) : Prop := ∀ inner, Inside inner node → inner.Consistent

end Node

namespace Tree

theorem grammar_known : ∀ kind ∈ Node.grammar,
    (GroupKind.ofName? kind).isSome ∨ (BranchKind.ofName? kind).isSome ∨
      (PhraseKind.ofName? kind).isSome ∨ (LeafKind.ofName? kind).isSome ∨
      kind ∈ ["variable_assignment", "command", "while_statement", "for_statement",
        "case_statement", "case_item", "function_definition", "subshell",
        "redirected_statement"] := by
  decide

theorem find?_unknown {Kind : Type} (kinds : List Kind) (name : Kind → String) (kind : String)
    (unknown : kind ∉ Node.grammar) (known : ∀ each, name each ∈ Node.grammar) :
    kinds.find? (name · = kind) = none := by
  refine List.find?_eq_none.mpr fun each _ same => unknown ?_
  rw [← of_decide_eq_true same]
  exact known each

theorem nodeOf_other (kind : String) (source : Source) (children : List Node) (slots : Slots)
    (unknown : kind ∉ Node.grammar) :
    nodeOf kind source children slots = .other kind source children := by
  have noGroup : GroupKind.ofName? kind = none :=
    find?_unknown _ _ kind unknown fun group => by cases group <;> decide
  have noBranch : BranchKind.ofName? kind = none :=
    find?_unknown _ _ kind unknown fun branch => by cases branch <;> decide
  have noPhrase : PhraseKind.ofName? kind = none :=
    find?_unknown _ _ kind unknown fun phrase => by cases phrase <;> decide
  have special : kind ≠ "special_variable_name" := by
    rintro rfl
    exact unknown (by decide)
  have noLeaf : LeafKind.ofName? kind = none := by
    rw [LeafKind.ofName?, if_neg special]
    exact find?_unknown _ _ kind unknown fun leaf => by cases leaf <;> decide
  simp only [Node.grammar, List.mem_cons, not_or] at unknown
  simp only [nodeOf, noGroup, noBranch, noPhrase, noLeaf, unknown, if_false]

theorem startsWithWord_iff (word text : List Char) (first : Char) (rest : List Char)
    (spelled : word = first :: rest) (solid : Text.isBlank first = false) :
    startsWithWord word text = true ↔ ∃ blanks behind : List Char,
      text = blanks ++ word ++ behind ∧ (∀ c ∈ blanks, Text.isBlank c = true) ∧
        ∀ c ∈ behind.head?, Text.isBlank c = true := by
  simp only [startsWithWord, Bool.and_eq_true, List.isPrefixOf_iff_prefix]
  constructor
  · rintro ⟨⟨behind, same⟩, ended⟩
    refine ⟨text.takeWhile Text.isBlank, behind, ?_, ?_, ?_⟩
    · rw [List.append_assoc, same]
      exact (List.takeWhile_append_dropWhile ..).symm
    · intro c member
      exact List.all_eq_true.mp List.all_takeWhile c member
    · rw [← same, List.drop_left] at ended
      cases behind with
      | nil => simp
      | cons next more => simpa using ended
  · rintro ⟨blanks, behind, rfl, blank, ended⟩
    have trimmed : Text.trimStart (blanks ++ word ++ behind) = word ++ behind := by
      rw [Text.trimStart, List.append_assoc, List.dropWhile_append_of_pos blank, spelled,
        List.cons_append, List.dropWhile_cons_of_neg (by simp [solid])]
    rw [trimmed, List.drop_left]
    refine ⟨⟨behind, rfl⟩, ?_⟩
    cases behind with
    | nil => rfl
    | cons next more => exact ended next (by simp)

theorem isUntil_iff (text : String) : isUntil text = true ↔ SaysUntil text :=
  startsWithWord_iff _ _ 'u' ['n', 't', 'i', 'l'] rfl (by decide)

theorem nodeOf_consistent (kind : String) (source : Source) (children : List Node)
    (slots : Slots) : (nodeOf kind source children slots).Consistent where
  assigning := nodeOf_prefixed kind source children slots
  announced := by
    intro untilTrue place condition body same
    revert same
    fun_cases nodeOf kind source children slots <;> intro same <;> cases same
    exact isUntil_iff source.text
  unknown := by
    intro unknown place inner same
    revert same
    fun_cases nodeOf kind source children slots <;> intro same <;> cases same
    intro known
    rcases grammar_known kind known with group | branch | phrase | leaf | single <;> simp_all

end Tree

namespace Node

def unnamed : Node → List Node
  | .command _ _ _ assignments => assignments
  | node => node.children

def named : Node → Tree.Slots
  | .assignment _ name value => [("name", name.toList), ("value", value.toList)]
  | .command _ name arguments _ => [("name", name.toList), ("argument", arguments)]
  | .branch _ _ condition _ => [("condition", condition)]
  | .loop _ _ condition body => [("condition", condition), ("body", body.toList)]
  | .forEach _ binder values body =>
      [("variable", binder.toList), ("value", values), ("body", body.toList)]
  | .caseOf _ subject _ => [("value", subject.toList)]
  | .caseItem _ patterns _ => [("value", patterns)]
  | .function _ name body => [("name", name.toList), ("body", body.toList)]
  | .redirected _ body redirects => [("body", body.toList), ("redirect", redirects)]
  | _ => []

theorem nodeOf_named (node : Node) (consistent : node.Consistent) :
    Tree.nodeOf node.kindName node.source node.unnamed node.named = node := by
  cases node with
  | group kind source children => cases kind <;> rfl
  | assignment source name value => cases name <;> cases value <;> rfl
  | command source name arguments assignments =>
      have kept : assignments.filter isAssignment = assignments :=
        List.filter_eq_self.mpr consistent.assigning
      cases name <;> exact congrArg (Node.command source _ arguments) kept
  | branch kind source condition children => cases kind <;> rfl
  | loop untilTrue source condition body =>
      have same : Tree.isUntil source.text = untilTrue :=
        Bool.eq_iff_iff.mpr ((Tree.isUntil_iff _).trans
          (consistent.announced untilTrue source condition body rfl).symm)
      cases body <;> exact congrArg (Node.loop · source condition _) same
  | forEach source binder values body => cases binder <;> cases body <;> rfl
  | caseOf source subject items => cases subject <;> rfl
  | caseItem source patterns children => rfl
  | function source name body => cases name <;> cases body <;> rfl
  | subshell source children => rfl
  | redirected source body redirects => cases body <;> rfl
  | phrase kind source children => cases kind <;> rfl
  | leaf kind source => cases kind <;> rfl
  | other kind source children =>
      exact Tree.nodeOf_other kind source children _ (consistent.unknown kind source children rfl)

theorem unnamed_part (node child : Node) (member : child ∈ node.unnamed) : child ∈ node.parts := by
  cases node <;> simp_all [unnamed, children, parts]

theorem named_part (node child : Node) (slot : String × List Node) (present : slot ∈ node.named)
    (member : child ∈ slot.2) : child ∈ node.parts := by
  cases node <;> simp only [named, List.mem_cons, List.not_mem_nil, or_false] at present <;>
    simp only [parts] <;> grind

theorem named_distinct (node : Node) : (node.named.map (·.1)).Nodup := by
  cases node <;> simp [named]

theorem named_unreserved (node : Node) : ∀ name ∈ node.named.map (·.1), name ∉ Tree.reserved := by
  cases node <;> simp [named, Tree.reserved]

end Node

namespace Json

theorem settledItems_eq_map (items : List Json) : settledItems items = items.map settled := by
  induction items with
  | nil => rw [settledItems]; rfl
  | cons item rest ih => rw [settledItems, ih]; rfl

theorem settledMembers_eq (members : List (String × Json))
    (each : ∀ entry ∈ members, entry.2.settled = entry.2) : settledMembers members = members := by
  induction members with
  | nil => rw [settledMembers]
  | cons entry rest ih =>
      rw [settledMembers, each entry (List.mem_cons_self ..),
        ih fun other member => each other (List.mem_cons_of_mem _ member)]

theorem settled_object (members : List (String × Json)) (distinct : (members.map (·.1)).Nodup)
    (each : ∀ entry ∈ members, entry.2.settled = entry.2) :
    (Json.object members).settled = .object members := by
  rw [settled, settledMembers_eq members each]
  exact congrArg Json.object (Table.insertAll_absent .empty members distinct)

def header (kind : String) (source : Source) (children : List Json) : List (String × Json) :=
  [("type", .string kind), ("text", .string source.text),
   ("start_row", .nat source.span.start.line), ("start_col", .nat source.span.start.column),
   ("end_row", .nat source.span.stop.line), ("end_col", .nat source.span.stop.column),
   ("children", .array children)]

def written (kind : String) (source : Source) (children : List Json)
    (slots : List (String × List Json)) : Json :=
  .object (header kind source children ++ slots.map fun slot => (slot.1, .array slot.2))

theorem written_settled (kind : String) (source : Source) (children : List Json)
    (slots : List (String × List Json)) (distinct : (slots.map (·.1)).Nodup)
    (plain : ∀ name ∈ slots.map (·.1), name ∉ Tree.reserved)
    (childrenSettled : (array children).settled = array children)
    (slotsSettled : ∀ slot ∈ slots, (array slot.2).settled = array slot.2) :
    (written kind source children slots).settled = written kind source children slots := by
  have names : (slots.map fun slot => (slot.1, array slot.2)).map (·.1) = slots.map (·.1) := by
    rw [List.map_map]
    rfl
  refine settled_object _ ?_ ?_
  · rw [List.map_append, names]
    refine List.nodup_append.mpr ⟨(by decide : Tree.reserved.Nodup), distinct, ?_⟩
    rintro name special _ member rfl
    exact plain name member special
  · have reserved : ∀ entry ∈ header kind source children, entry.2.settled = entry.2 := by
      simp only [header, List.forall_mem_cons]
      exact ⟨rfl, rfl, rfl, rfl, rfl, rfl, childrenSettled, by simp⟩
    intro entry member
    rcases List.mem_append.mp member with special | other
    · exact reserved entry special
    · obtain ⟨slot, present, rfl⟩ := List.mem_map.mp other
      exact slotsSettled slot present

end Json

namespace Node

def asParsed (node : Node) : Json :=
  .written node.kindName node.source
    (node.unnamed.attach.map fun child => asParsed child.1)
    (node.named.attach.map fun slot =>
      (slot.1.1, slot.1.2.attach.map fun child => asParsed child.1))
termination_by sizeOf node
decreasing_by
  · exact size_part node child.1 (unnamed_part node child.1 child.2)
  · exact size_part node child.1 (named_part node child.1 slot.1 slot.2 child.2)

theorem asParsed_eq (node : Node) : node.asParsed =
    .written node.kindName node.source (node.unnamed.map asParsed)
      (node.named.map fun slot => (slot.1, slot.2.map asParsed)) := by
  rw [asParsed]
  simp only [List.attach_map_val]
  rw [List.attach_map_val (f := fun slot : String × List Node => (slot.1, slot.2.map asParsed))]

end Node

namespace Tree

theorem machineWord?_nat (place : UInt64) : (Json.nat place.toNat).machineWord? = some place := by
  have small : (Json.nat place.toNat).natBelow? UInt64.size = some place.toNat :=
    if_pos place.toNat_lt_size
  rw [Json.machineWord?, small, Option.map_some, UInt64.ofNat_toNat]

theorem header?_written (kind : String) (source : Source) (children : List Json)
    (slots : List (String × Json))
    (plain : ∀ name ∈ reserved, Json.values name slots = []) :
    header? (Json.header kind source children ++ slots) = some (kind, source) := by
  have alone : ∀ name ∈ reserved, Json.values name (Json.header kind source children ++ slots) =
      Json.values name (Json.header kind source children) := by
    intro name member
    rw [Json.values_append, plain name member, List.append_nil]
  have named : text? (readings (Json.header kind source children ++ slots)) "type" none =
      some kind := by
    rw [text?, single?_readings, alone "type" (by decide)]
    rfl
  have spelled : text? (readings (Json.header kind source children ++ slots)) "text" (some "") =
      some source.text := by
    rw [text?, single?_readings, alone "text" (by decide)]
    rfl
  have place : ∀ name (place : UInt64), name ∈ reserved →
      Json.values name (Json.header kind source children) = [.nat place.toNat] →
      place? (readings (Json.header kind source children ++ slots)) name = some place := by
    intro name place member written
    rw [place?, single?_readings, alone name member, written]
    exact machineWord?_nat place
  simp only [header?, named, spelled, place "start_row" _ (by decide) rfl,
    place "start_col" _ (by decide) rfl, place "end_row" _ (by decide) rfl,
    place "end_col" _ (by decide) rfl]
  rfl

theorem mapM_back (encode : Node → Json) (nodes : List Node)
    (back : ∀ node ∈ nodes, Node.ofJson? (encode node) = some node) :
    (nodes.map encode).mapM Node.ofJson? = some nodes := by
  induction nodes with
  | nil => rfl
  | cons node rest ih =>
      rw [List.map_cons, List.mapM_cons, back node (List.mem_cons_self ..),
        ih fun other member => back other (List.mem_cons_of_mem _ member)]
      rfl

theorem many_written (encode : Node → Json) (slots : Slots) (name : String)
    (distinct : (slots.map (·.1)).Nodup)
    (back : ∀ slot ∈ slots, ∀ node ∈ slot.2, Node.ofJson? (encode node) = some node) :
    ((Json.values name (slots.map fun slot => (slot.1, .array (slot.2.map encode)))).getLast?.map
      fun value => (treesIn value).map toNode).getD [] = slots.many name := by
  have last : Table.find name slots = (slots.filter (·.1 = name)).getLast?.map (·.2) := by
    have stored := Table.insertAll_absent Table.empty slots distinct
    have found := Table.get?_insertAll_eq Table.empty slots name
    rw [Table.get?_empty, Option.or_none, Table.get?, stored] at found
    exact found
  have written : Json.values name (slots.map fun slot => (slot.1, .array (slot.2.map encode))) =
      (slots.filter (·.1 = name)).map fun slot => .array (slot.2.map encode) := by
    rw [Json.values, List.filter_map, List.map_map]
    rfl
  rw [Slots.many, last, written, List.getLast?_map]
  cases final : (slots.filter (·.1 = name)).getLast? with
  | none => rfl
  | some slot =>
      have present := (List.mem_filter.mp (List.mem_of_getLast? final)).1
      simp only [Option.map_some, Option.getD_some, treesIn_array,
        mapM_back encode slot.2 (back slot present)]

theorem ofJson?_written (encode : Node → Json) (kind : String) (source : Source)
    (children : List Node) (slots : Slots)
    (distinct : (slots.map (·.1)).Nodup) (plain : ∀ name ∈ slots.map (·.1), name ∉ reserved)
    (childrenBack : ∀ child ∈ children, Node.ofJson? (encode child) = some child)
    (slotsBack : ∀ slot ∈ slots, ∀ node ∈ slot.2, Node.ofJson? (encode node) = some node) :
    Node.ofJson? (.written kind source (children.map encode)
      (slots.map fun slot => (slot.1, slot.2.map encode))) =
      some (nodeOf kind source children slots) := by
  have members : (slots.map fun slot => (slot.1, slot.2.map encode)).map
      (fun slot => (slot.1, Json.array slot.2)) =
      slots.map fun slot => (slot.1, .array (slot.2.map encode)) := by
    rw [List.map_map]
    rfl
  have absent : ∀ name ∈ reserved, Json.values name
      (slots.map fun slot => (slot.1, .array (slot.2.map encode))) = [] := by
    intro name special
    refine Json.values_absent name _ fun member => plain name ?_ special
    rwa [List.map_map] at member
  have listed : (children? (Json.header kind source (children.map encode) ++
      slots.map fun slot => (slot.1, .array (slot.2.map encode)))).map (List.map toNode) =
      some children := by
    rw [children?, Json.values_append, absent "children" (by decide), List.append_nil, sole_map]
    change (listOfJson? (.array (children.map encode))).map (List.map toNode) = some children
    rw [listOfJson?_map]
    exact mapM_back encode children childrenBack
  rw [Json.written, members, toNode_object, header?_written kind source _ _ absent, listed]
  refine congrArg some (nodeOf_congr kind source children _ _ fun name member => ?_)
  have special : name ∉ reserved := slotNames_unreserved kind name member
  rw [many_fieldsOf, if_neg special, Json.values_append, Json.values_absent name (Json.header _ _ _)
    special, List.nil_append]
  exact many_written encode slots name distinct slotsBack

end Tree

namespace Node

theorem ofJson?_asParsed (node : Node) (readable : node.Readable) :
    ofJson? node.asParsed = some node := by
  induction node using induction_beneath with
  | step whole ih =>
      have back : ∀ part ∈ whole.parts, ofJson? part.asParsed = some part := by
        intro part member
        refine ih part (beneath_part part whole member) fun inner inside => ?_
        exact readable inner (.part whole part member inside)
      have consistent := readable whole .self
      rw [asParsed_eq, Tree.ofJson?_written asParsed _ _ _ _
        (named_distinct whole) (named_unreserved whole)
        (fun child member => back child (unnamed_part whole child member))
        fun slot present node member => back node (named_part whole node slot present member)]
      exact congrArg some (nodeOf_named whole consistent)

theorem asParsed_settled (node : Node) : node.asParsed.settled = node.asParsed := by
  induction node using induction_beneath with
  | step whole ih =>
      have lists : ∀ nodes : List Node, (∀ node ∈ nodes, node ∈ whole.parts) →
          (Json.array (nodes.map asParsed)).settled = .array (nodes.map asParsed) := by
        intro nodes among
        rw [Json.settled, Json.settledItems_eq_map, List.map_map]
        refine congrArg Json.array (List.map_congr_left fun node member => ?_)
        exact ih node (beneath_part node whole (among node member))
      have names : (whole.named.map fun slot => (slot.1, slot.2.map asParsed)).map (·.1) =
          whole.named.map (·.1) := by
        rw [List.map_map]
        rfl
      rw [asParsed_eq]
      refine Json.written_settled _ _ _ _ (names ▸ named_distinct whole)
        (names ▸ named_unreserved whole) (lists _ (unnamed_part whole)) ?_
      intro written member
      obtain ⟨slot, present, rfl⟩ := List.mem_map.mp member
      exact lists slot.2 fun node => named_part whole node slot present

end Node

namespace Tree

def ReadsReadable (json : Json) : Prop :=
  (∀ tree, ofJson? json = some tree → tree.toNode.Readable) ∧
    ∀ trees, listOfJson? json = some trees → ∀ tree ∈ trees, tree.toNode.Readable

theorem readsReadable_object (members : List (String × Json))
    (inner : ∀ entry ∈ members, ReadsReadable entry.2) (tree : Tree)
    (read : ofJson? (.object members) = some tree) : tree.toNode.Readable := by
  rw [ofJson?_object, Option.bind_eq_some_iff] at read
  obtain ⟨⟨kind, source⟩, header, assembled⟩ := read
  obtain ⟨children, listed, rfl⟩ := Option.map_eq_some_iff.mp assembled
  rw [toNode]
  refine Node.inside_parts _
    (nodeOf_consistent kind source _ _) ?_
  intro part member
  rcases nodeOf_parts kind source _ _ part member with child | ⟨name, filled⟩
  · rw [toNodes_eq_map] at child
    obtain ⟨tree, present, rfl⟩ := List.mem_map.mp child
    obtain ⟨value, stands, here⟩ := mem_children? members children listed tree present
    exact (inner _ stands).2 children here tree present
  · rw [many_slotsOf] at filled
    obtain ⟨tree, present, rfl⟩ := List.mem_map.mp filled
    obtain ⟨value, stands, here⟩ := mem_treesOf name members tree present
    rcases mem_treesIn value tree here with single | ⟨trees, several, among⟩
    · exact (inner _ stands).1 tree single
    · exact (inner _ stands).2 trees several tree among

theorem readsReadable (json : Json) : ReadsReadable json := by
  induction json using Json.induction_parts with
  | step whole ih =>
      cases whole with
      | object members =>
          refine ⟨readsReadable_object members fun entry member => ?_,
            fun _ listed => (by cases listed)⟩
          exact ih entry.2 (List.mem_map_of_mem member)
      | array items =>
          refine ⟨fun _ read => (by cases read), fun trees listed tree member => ?_⟩
          obtain ⟨item, present, read⟩ := mem_allOfJson? items trees listed tree member
          exact (ih item present).1 tree read
      | _ => exact ⟨fun _ read => (by cases read), fun _ listed => (by cases listed)⟩

end Tree

theorem reading_image (node : Node) :
    ((∃ json, Node.ofJson? json = some node) ↔ node.Readable) ∧
      ((∃ json : Json, json.settled = json ∧ Node.ofJson? json = some node) ↔ node.Readable) := by
  have sound : ∀ json, Node.ofJson? json = some node → node.Readable := by
    intro json read
    obtain ⟨tree, here, rfl⟩ := Option.map_eq_some_iff.mp read
    exact (Tree.readsReadable json).1 tree here
  refine ⟨⟨fun ⟨json, read⟩ => sound json read, fun readable => ?_⟩,
    ⟨fun ⟨json, _, read⟩ => sound json read, fun readable => ?_⟩⟩
  · exact ⟨node.asParsed, node.ofJson?_asParsed readable⟩
  · exact ⟨node.asParsed, node.asParsed_settled, node.ofJson?_asParsed readable⟩

end ShellWalk
