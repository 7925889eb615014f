import ShellWalk.Double
import ShellWalk.Table

set_option autoImplicit false

namespace ShellWalk

-- Integers of at most 64 bits are exact; every other number is a double.
inductive Json.Number where
  | integer (value : Int)
  | double (negative : Bool) (size : Double)
deriving DecidableEq, Repr, Inhabited

inductive Json where
  | null
  | bool (value : Bool)
  | number (value : Json.Number)
  | string (value : String)
  | array (items : List Json)
  | object (members : List (String × Json))
deriving Inhabited

namespace Json

def integer (value : Int) : Json := .number (.integer value)

def nat (value : Nat) : Json := .integer value

def strings (texts : List String) : Json := .array (texts.map .string)

def lastOf? (name : String) : List (String × Json) → Option Json
  | [] => none
  | (key, value) :: rest =>
      match lastOf? name rest with
      | some later => some later
      | none => if key = name then some value else none

mutual

-- Every name once, with its last value.
def settled : Json → Json
  | .array items => .array (settledItems items)
  | .object members => .object (Table.ofList (settledMembers members)).entries
  | other => other

def settledItems : List Json → List Json
  | [] => []
  | item :: rest => item.settled :: settledItems rest

def settledMembers : List (String × Json) → List (String × Json)
  | [] => []
  | (name, value) :: rest => (name, value.settled) :: settledMembers rest

end

def member? (json : Json) (name : String) : Option Json :=
  match json with
  | .object members => lastOf? name members
  | _ => none

def string? : Json → Option String
  | .string value => some value
  | _ => none

def bool? : Json → Option Bool
  | .bool value => some value
  | _ => none

def array? : Json → Option (List Json)
  | .array items => some items
  | _ => none

def integer? : Json → Option Int
  | .number (.integer value) => some value
  | _ => none

def natBelow? (bound : Nat) (json : Json) : Option Nat :=
  match json.integer? with
  | some (.ofNat value) => if value < bound then some value else none
  | _ => none

def machineWord? (json : Json) : Option UInt64 := (json.natBelow? UInt64.size).map UInt64.ofNat

end Json

end ShellWalk
