import ShellWalk.Json.Reader

set_option autoImplicit false

namespace ShellWalk.Json

def namedMembers? : List (List Unit16 × Literal) → Option (List (String × Literal))
  | [] => some []
  | (units, value) :: rest => do
      let name ← textOf? [] units
      let others ← namedMembers? rest
      return (name, value) :: others

def soleMember? (members : List (String × Literal)) (name : String) : Option (Option Literal) :=
  match members.filter (·.1 = name) with
  | [] => some none
  | [(_, value)] => some (some value)
  | _ => none

def Literal.record? (names : List String) : Literal → Option (List (Option Literal))
  | .object members => do
      let named ← namedMembers? members
      names.mapM (soleMember? named)
  | .array items =>
      if items.length ≤ names.length then
        some (items.map some ++ List.replicate (names.length - items.length) none)
      else none
  | _ => none

def Literal.member? (name : String) : Literal → Option Literal
  | .object members =>
      (members.reverse.find? fun entry => textOf? [] entry.1 = some name).map (·.2)
  | _ => none

def fill? {α : Type} (read : Literal → Option α) (absent : α) : Option Literal → Option α
  | none => some absent
  | some literal => read literal

def Literal.natBelow? (bound : Nat) (literal : Literal) : Option Nat :=
  literal.value?.bind (Json.natBelow? bound)

end ShellWalk.Json
