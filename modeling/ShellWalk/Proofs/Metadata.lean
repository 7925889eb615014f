import ShellWalk.Node.OfText
import ShellWalk.Proofs.Reading

set_option autoImplicit false

namespace ShellWalk

variable {α : Type}

namespace Json

structure Facet (α : Type) where
  text : Option String
  place : Option UInt64
  node : Option α
  nodes : Option (List α)

def facet (view : Tree → α) (value : Json) : Facet α where
  text := value.string?
  place := value.machineWord?
  node := (Tree.ofJson? value).map view
  nodes := (Tree.listOfJson? value).map (List.map view)

def facets (view : Tree → α) (name : String) (members : List (String × Json)) : List (Facet α) :=
  (values name members).map (facet view)

def Facet.inSlot (facet : Facet α) : List α :=
  match facet.node, facet.nodes with
  | some node, _ => [node]
  | none, some nodes => nodes
  | none, none => []

end Json

namespace Tree

structure Shows (view : Tree → α) (slots : String → List String) : Prop where
  plain : ∀ kind, ∀ name ∈ slots kind, name ∉ reserved
  same : ∀ kind source children others fields changed, children.map view = others.map view →
    (∀ name ∈ slots kind, (treesOf name fields).map view = (treesOf name changed).map view) →
    view (.node kind source children fields) = view (.node kind source others changed)

theorem shows_success : Shows (fun _ => ()) fun _ => [] where
  plain := fun _ _ member => by cases member
  same := fun _ _ _ _ _ _ _ _ => rfl

theorem shows_toNode : Shows toNode slotNames where
  plain := slotNames_unreserved
  same := by
    intro kind source children others fields changed inner slots
    rw [toNode, toNode, toNodes_eq_map, toNodes_eq_map, inner]
    refine nodeOf_congr kind source _ _ _ fun name member => ?_
    rw [many_slotsOf, many_slotsOf]
    exact slots name member

variable {view : Tree → α} {slots : String → List String}

theorem treesIn_facet (value : Json) : (treesIn value).map view = (value.facet view).inSlot := by
  unfold treesIn Reading.of Reading.field Json.facet Json.Facet.inSlot
  cases ofJson? value with
  | some tree => rfl
  | none => cases listOfJson? value <;> rfl

theorem treesOf_facets (name : String) (plain : name ∉ reserved) (members : List (String × Json)) :
    (treesOf name (fieldsOf (readings members))).map view =
      ((Json.facets view name members).getLast?.map Json.Facet.inSlot).getD [] := by
  rw [treesOf_fieldsOf, if_neg plain, Json.facets, List.getLast?_map]
  cases (Json.values name members).getLast? with
  | none => rfl
  | some value => exact treesIn_facet value

theorem text?_facets (name : String) (absent : Option String) (members : List (String × Json)) :
    text? (readings members) name absent =
      sole absent ((Json.facets view name members).map Json.Facet.text) := by
  rw [text?, single?_readings, Json.facets, List.map_map]
  rfl

theorem place?_facets (name : String) (members : List (String × Json)) :
    place? (readings members) name =
      sole (some 0) ((Json.facets view name members).map Json.Facet.place) := by
  rw [place?, single?_readings, Json.facets, List.map_map]
  rfl

theorem children?_facets (members : List (String × Json)) :
    (children? members).map (List.map view) =
      sole (some []) ((Json.facets view "children" members).map Json.Facet.nodes) := by
  rw [children?, sole_map, Json.facets, List.map_map, List.map_map]
  rfl

theorem header?_kind (members : List (String × Json)) (kind : String) (source : Source)
    (read : header? members = some (kind, source)) : ("type", .string kind) ∈ members := by
  simp only [header?, Option.bind_eq_bind, Option.bind_eq_some_iff, Option.pure_def,
    Option.some.injEq, Prod.mk.injEq] at read
  obtain ⟨_, named, _, _, _, _, _, _, _, _, _, _, rfl, _⟩ := read
  rw [text?, single?_readings] at named
  rcases sole_some _ _ _ named with absent | present
  · cases absent
  · obtain ⟨value, member, here⟩ := List.mem_map.mp present
    cases value with
    | string text =>
        cases here
        exact (Json.mem_values _ _ _).mp member
    | _ => cases here

theorem header?_facets (members changed : List (String × Json))
    (special : ∀ name ∈ reserved, Json.facets view name members = Json.facets view name changed) :
    header? members = header? changed := by
  have text : ∀ name ∈ reserved, ∀ absent,
      text? (readings members) name absent = text? (readings changed) name absent := by
    intro name member absent
    rw [@text?_facets _ view, @text?_facets _ view, special name member]
  have place : ∀ name ∈ reserved,
      place? (readings members) name = place? (readings changed) name := by
    intro name member
    rw [@place?_facets _ view, @place?_facets _ view, special name member]
  simp only [header?, text "type" (by decide), text "text" (by decide),
    place "start_row" (by decide), place "start_col" (by decide), place "end_row" (by decide),
    place "end_col" (by decide)]

theorem ofJson?_facets (shows : Shows view slots) (members changed : List (String × Json))
    (special : ∀ name ∈ reserved, Json.facets view name members = Json.facets view name changed)
    (slot : ∀ kind, ("type", .string kind) ∈ members → ∀ name ∈ slots kind,
      Json.facets view name members = Json.facets view name changed) :
    (ofJson? (.object members)).map view = (ofJson? (.object changed)).map view := by
  have listed : (children? members).map (List.map view) =
      (children? changed).map (List.map view) := by
    rw [children?_facets, children?_facets, special "children" (by decide)]
  rw [ofJson?_object, ofJson?_object, ← header?_facets members changed special]
  cases read : header? members with
  | none => rfl
  | some head =>
      rcases head with ⟨kind, source⟩
      have typed := header?_kind members kind source read
      have fields : ∀ name ∈ slots kind,
          (treesOf name (fieldsOf (readings members))).map view =
            (treesOf name (fieldsOf (readings changed))).map view := by
        intro name member
        have plain := shows.plain kind name member
        rw [treesOf_facets name plain, treesOf_facets name plain, slot kind typed name member]
      cases here : children? members with
      | none =>
          rw [here] at listed
          rw [Option.map_eq_none_iff.mp listed.symm]
          rfl
      | some children =>
          rw [here] at listed
          obtain ⟨others, there, inner⟩ := Option.map_eq_some_iff.mp listed.symm
          rw [there]
          exact congrArg some (shows.same kind source children others _ _ inner.symm fields)

end Tree

namespace Json

-- A key that no reading looks at in an object: not reserved, and no slot of the object's kind.
def Free (slots : String → List String) (members : List (String × Json)) (key : String) : Prop :=
  key ∉ Tree.reserved ∧ ∀ kind, ("type", .string kind) ∈ members → key ∉ slots kind

-- One free key of one object, at any depth, with another value, several, or none.
inductive Edited (slots : String → List String) : Json → Json → Prop
  | key (members changed : List (String × Json)) (name : String) (free : Free slots members name)
      (others : members.filter (·.1 ≠ name) = changed.filter (·.1 ≠ name)) :
      Edited slots (.object members) (.object changed)
  | member (before after : List (String × Json)) (name : String) (inner changed : Json)
      (deeper : Edited slots inner changed) :
      Edited slots (.object (before ++ (name, inner) :: after))
        (.object (before ++ (name, changed) :: after))
  | item (before after : List Json) (inner changed : Json) (deeper : Edited slots inner changed) :
      Edited slots (.array (before ++ inner :: after)) (.array (before ++ changed :: after))

variable {view : Tree → α} {slots : String → List String}

theorem values_filter (name other : String) (different : name ≠ other)
    (members : List (String × Json)) :
    values name (members.filter (·.1 ≠ other)) = values name members := by
  have same : ∀ entry ∈ members,
      (decide (entry.1 = name) && decide (entry.1 ≠ other)) = decide (entry.1 = name) := by
    intro entry _
    by_cases here : entry.1 = name
    · simp [here, different]
    · simp [here]
  rw [values, values, List.filter_filter, List.filter_congr same]

theorem facets_others (name other : String) (different : name ≠ other)
    (members changed : List (String × Json))
    (others : members.filter (·.1 ≠ other) = changed.filter (·.1 ≠ other)) :
    facets view name members = facets view name changed := by
  rw [facets, facets, ← values_filter name other different members, others,
    values_filter name other different changed]

theorem facets_member (name : String) (before after : List (String × Json)) (key : String)
    (inner changed : Json) (same : inner.facet view = changed.facet view) :
    facets view name (before ++ (key, inner) :: after) =
      facets view name (before ++ (key, changed) :: after) := by
  have cons : ∀ value, facets view name ((key, value) :: after) =
      if key = name then value.facet view :: facets view name after
      else facets view name after := by
    intro value
    by_cases here : key = name
    · simp [facets, values, here]
    · simp [facets, values, here]
  have append : ∀ later, facets view name (before ++ later) =
      facets view name before ++ facets view name later := by
    intro later
    rw [facets, values_append, List.map_append]
    rfl
  rw [append, append, cons, cons, same]

theorem facet_object (members changed : List (String × Json))
    (same : (Tree.ofJson? (.object members)).map view =
      (Tree.ofJson? (.object changed)).map view) :
    (object members).facet view = (object changed).facet view := by
  unfold facet
  rw [same]
  rfl

theorem facet_array (items changed : List Json)
    (same : (items.map fun item => (item.facet view).node) =
      changed.map fun item => (item.facet view).node) :
    (array items).facet view = (array changed).facet view := by
  have node : ∀ items, Tree.ofJson? (.array items) = none := by
    intro items
    rw [Tree.ofJson?]
    intro members here
    cases here
  have nodes : ∀ items, (Tree.listOfJson? (.array items)).map (List.map view) =
      (items.map fun item => (item.facet view).node).mapM id := by
    intro items
    rw [Tree.listOfJson?_map, List.mapM_map]
    rfl
  rw [facet, facet, nodes, nodes, same, node, node]
  rfl

theorem Edited.facet (shows : Tree.Shows view slots) {value changed : Json}
    (edited : Edited slots value changed) : value.facet view = changed.facet view := by
  induction edited with
  | key members changed name free others =>
      refine facet_object members changed (Tree.ofJson?_facets shows members changed ?_ ?_)
      · intro other special
        refine facets_others other name ?_ members changed others
        rintro rfl
        exact free.1 special
      · intro kind typed other slot
        refine facets_others other name ?_ members changed others
        rintro rfl
        exact free.2 kind typed slot
  | member before after name inner changed _ ih =>
      refine facet_object _ _ (Tree.ofJson?_facets shows _ _ ?_ ?_)
      · intro other _
        exact facets_member other before after name inner changed ih
      · intro _ _ other _
        exact facets_member other before after name inner changed ih
  | item before after inner changed _ ih =>
      refine facet_array _ _ ?_
      simp only [List.map_append, List.map_cons, ih]

mutual

def frame : Json → Json
  | .object members => .object (Tree.reserved.flatMap fun name =>
      (frameMembers members).filter (·.1 = name))
  | value => value

def frameMembers : List (String × Json) → List (String × Json)
  | [] => []
  | (name, value) :: rest =>
      (name, if name = "children" then frameList value else value) :: frameMembers rest

def frameList : Json → Json
  | .array items => .array (frameItems items)
  | value => value

def frameItems : List Json → List Json
  | [] => []
  | item :: rest => frame item :: frameItems rest

end

theorem frameMembers_eq_map (members : List (String × Json)) :
    frameMembers members = members.map fun entry =>
      (entry.1, if entry.1 = "children" then frameList entry.2 else entry.2) := by
  induction members with
  | nil => rw [frameMembers]; rfl
  | cons entry rest ih => rw [frameMembers, ih]; rfl

theorem frameItems_eq_map (items : List Json) : frameItems items = items.map frame := by
  induction items with
  | nil => rw [frameItems]; rfl
  | cons item rest ih => rw [frameItems, ih]; rfl

theorem values_sorted (names : List String) (distinct : names.Nodup) (name : String)
    (member : name ∈ names) (members : List (String × Json)) :
    values name (names.flatMap fun key => members.filter (·.1 = key)) = values name members := by
  induction names with
  | nil => cases member
  | cons first rest ih =>
      have group : ∀ key, values name (members.filter (·.1 = key)) =
          if key = name then values name members else [] := by
        intro key
        by_cases here : key = name
        · simp [values, here]
        · simp only [values, List.filter_filter, if_neg here, List.map_eq_nil_iff,
            List.filter_eq_nil_iff]
          grind
      obtain ⟨fresh, others⟩ := List.nodup_cons.mp distinct
      rw [List.flatMap_cons, values_append, group]
      by_cases here : first = name
      · have absent : values name (rest.flatMap fun key => members.filter (·.1 = key)) = [] := by
          refine values_absent name _ ?_
          simp only [List.mem_map, List.mem_flatMap, List.mem_filter]
          grind
        rw [if_pos here, absent, List.append_nil]
      · rw [if_neg here, List.nil_append, ih others (List.mem_of_ne_of_mem (Ne.symm here) member)]

theorem values_frameMembers (name : String) (members : List (String × Json)) :
    values name (frameMembers members) = (values name members).map fun value =>
      if name = "children" then frameList value else value := by
  rw [frameMembers_eq_map]
  induction members with
  | nil => rfl
  | cons entry rest ih =>
      by_cases here : entry.1 = name
      · simp_all [values]
      · simp_all [values]

theorem frame_facet (value : Json) :
    (value.frame.facet fun _ => ()).node = (value.facet fun _ => ()).node ∧
      value.frameList.facet (fun _ => ()) = value.facet fun _ => () := by
  -- The induction takes the two together: a node is its members, and of these the children are a
  -- list of nodes, whose reading asks again for nodes.
  induction value using induction_parts with
  | step whole ih =>
      cases whole with
      | object members =>
          refine ⟨?_, rfl⟩
          rw [frame]
          refine Tree.ofJson?_facets Tree.shows_success _ _ ?_ fun _ _ _ none => by cases none
          intro name special
          rw [facets, values_sorted Tree.reserved (by decide) name special, values_frameMembers,
            facets, List.map_map]
          refine List.map_congr_left fun value member => ?_
          have part : value ∈ (object members).parts :=
            List.mem_map_of_mem (f := Prod.snd) ((mem_values name members value).mp member)
          by_cases children : name = "children"
          · simp only [Function.comp, if_pos children]
            exact (ih value part).2
          · simp only [Function.comp, if_neg children]
      | array items =>
          refine ⟨rfl, ?_⟩
          rw [frameList, frameItems_eq_map]
          refine facet_array _ _ ?_
          rw [List.map_map]
          exact List.map_congr_left fun item member => (ih item member).1
      | _ => exact ⟨rfl, rfl⟩

end Json

theorem metadata_ignored :
    (∀ one other : Json, one.frame = other.frame →
      (Node.ofJson? one).isSome = (Node.ofJson? other).isSome) ∧
    (∀ one other : Json, one.Edited (fun _ => []) other →
      (Node.ofJson? one).isSome = (Node.ofJson? other).isSome) ∧
    ∀ one other : Json, one.Edited Tree.slotNames other →
      Node.ofJson? one = Node.ofJson? other := by
  have success : ∀ one other : Json,
      (one.facet fun _ => ()).node = (other.facet fun _ => ()).node →
        (Node.ofJson? one).isSome = (Node.ofJson? other).isSome := by
    intro one other same
    have seen := congrArg Option.isSome same
    simpa only [Json.facet, Node.ofJson?, Option.isSome_map] using seen
  refine ⟨?_, ?_, ?_⟩
  · intro one other same
    refine success one other ?_
    rw [← one.frame_facet.1, same, other.frame_facet.1]
  · intro one other edited
    exact success one other (congrArg Json.Facet.node (edited.facet Tree.shows_success))
  · intro one other edited
    exact congrArg Json.Facet.node (edited.facet Tree.shows_toNode)

theorem metadata_ignored_in_command :
    let marked := fun marks : List (String × Json) => Json.object [("type", .string "command"),
      ("argument", .array [.object ([("type", .string "word"), ("text", .string "x")] ++ marks)])]
    let empty := Json.object [("type", .string "command"), ("argument", .null)]
    let nameless := Json.object [("extra", .null),
      ("children", .array [.object [("extra", .null)]]), ("type", .string "program")]
    Node.ofJson? (marked [("is_error", .bool true)]) = Node.ofJson? (marked []) ∧
      Node.ofJson? (marked []) = some (.command (.ofText "") none [.ofWord "x"] []) ∧
    (Node.ofJson? empty).isSome = (Node.ofJson? (.object [("type", .string "command")])).isSome ∧
      (Node.ofJson? empty).isSome = true ∧
    (Node.ofJson? nameless).isSome = (Node.ofJson? (.object [("type", .string "program"),
        ("children", .array [.object []])])).isSome ∧
      (Node.ofJson? nameless).isSome = false := by
  intro marked empty nameless
  obtain ⟨framed, cleared, edited⟩ := metadata_ignored
  refine ⟨edited _ _ ?_, rfl, cleared _ _ ?_, rfl, framed _ _ (by rfl), rfl⟩
  · refine .member [("type", .string "command")] [] "argument" _ _ (.item [] [] _ _ ?_)
    refine .key _ _ "is_error" ⟨by decide, ?_⟩ (by rfl)
    intro kind typed
    have word : kind = "word" := by simpa using typed
    rw [word]
    decide
  · exact .key _ _ "argument" ⟨by decide, fun _ _ => List.not_mem_nil⟩ (by rfl)

end ShellWalk
