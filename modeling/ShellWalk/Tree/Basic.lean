import ShellWalk.Json.Basic
import ShellWalk.Source
import ShellWalk.Table

set_option autoImplicit false

namespace ShellWalk

mutual

inductive Tree where
  | node (kind : String) (source : Source) (children : List Tree) (fields : List (String × Field))

inductive Field where
  | one (tree : Tree)
  | many (trees : List Tree)
  | other (value : Json)

end

namespace Tree

def kind : Tree → String
  | .node kind _ _ _ => kind

def source : Tree → Source
  | .node _ source _ _ => source

def children : Tree → List Tree
  | .node _ _ children _ => children

def fields : Tree → List (String × Field)
  | .node _ _ _ fields => fields

def field? (tree : Tree) (name : String) : Option Field := Table.find name tree.fields

def isError (tree : Tree) : Bool :=
  ["is_error", "is_missing"].any fun flag =>
    match tree.field? flag with
    | some (.other (.bool true)) => true
    | _ => false

structure Reading where
  value : Json
  node? : Option Tree
  nodes? : Option (List Tree)

def reserved : List String :=
  ["type", "text", "start_row", "start_col", "end_row", "end_col", "children"]

-- The single member with a name: an absent one has the default, and a repeated one is refused.
def single? {α : Type} (members : List (String × Reading)) (name : String) (absent : Option α)
    (read : Reading → Option α) : Option α :=
  match members.filter (·.1 = name) with
  | [] => absent
  | [(_, reading)] => read reading
  | _ => none

def text? (members : List (String × Reading)) (name : String) (absent : Option String) :
    Option String :=
  single? members name absent (·.value.string?)

def place? (members : List (String × Reading)) (name : String) : Option UInt64 :=
  single? members name (some 0) (·.value.machineWord?)

def Reading.field (reading : Reading) : Field :=
  match reading.node?, reading.nodes? with
  | some tree, _ => .one tree
  | none, some trees => .many trees
  | none, none => .other reading.value

def fieldsOf (members : List (String × Reading)) : List (String × Field) :=
  (Table.ofList ((members.filter fun entry => !reserved.contains entry.1).map fun entry =>
    (entry.1, entry.2.field))).entries

def assemble? (members : List (String × Reading)) : Option Tree := do
  let kind ← text? members "type" none
  let text ← text? members "text" (some "")
  let startRow ← place? members "start_row"
  let startColumn ← place? members "start_col"
  let endRow ← place? members "end_row"
  let endColumn ← place? members "end_col"
  let children ← single? members "children" (some []) (·.nodes?)
  return .node kind ⟨⟨⟨startRow, startColumn⟩, ⟨endRow, endColumn⟩⟩, text⟩ children
    (fieldsOf members)

mutual

def ofJson? : Json → Option Tree
  | .object members => assemble? (readings members)
  | _ => none

def listOfJson? : Json → Option (List Tree)
  | .array items => allOfJson? items
  | _ => none

def allOfJson? : List Json → Option (List Tree)
  | [] => some []
  | item :: rest =>
      match ofJson? item, allOfJson? rest with
      | some first, some others => some (first :: others)
      | _, _ => none

def readings : List (String × Json) → List (String × Reading)
  | [] => []
  | (name, value) :: rest => (name, ⟨value, ofJson? value, listOfJson? value⟩) :: readings rest

end

end Tree

end ShellWalk
