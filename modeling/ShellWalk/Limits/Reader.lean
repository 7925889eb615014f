import ShellWalk.Json.Record
import ShellWalk.Limits
import ShellWalk.Toml.Document

set_option autoImplicit false

namespace ShellWalk.Limits

def iterationsName : String := "max_iterations"

def recursionName : String := "max_recursion_depth"

def sectionName : String := "limits"

def iterationsBound : Nat := Nat.pow 2 64

def recursionBound : Nat := Nat.pow 2 32

def ofLiteral? (literal : Json.Literal) : Option Limits := do
  match ← literal.record? [iterationsName, recursionName] with
  | [iterations, recursion] =>
      let iterations ← Json.fill? (·.natBelow? iterationsBound) standard.iterations iterations
      let recursion ← Json.fill? (·.natBelow? recursionBound) standard.recursion recursion
      return ⟨iterations, recursion⟩
  | _ => none

def parseJson? (text : String) : Option Limits := do
  let document ← Json.Literal.parse? text
  match ← document.record? [sectionName] with
  | [limits] => Json.fill? ofLiteral? standard limits
  | _ => none

def tomlNatBelow? (bound : Nat) : Toml → Option Nat
  | .integer (.ofNat n) => if n < bound then some n else none
  | _ => none

def fillToml? (bound absent : Nat) : Option Toml → Option Nat
  | none => some absent
  | some value => tomlNatBelow? bound value

def ofToml? (value : Toml) : Option Limits := do
  let (iterations, recursion) ← match value with
    | .table _ entries =>
        some (Table.find iterationsName entries, Table.find recursionName entries)
    | .array items => some (items[0]?, items[1]?)
    | .moment _ => some (none, none)
    | _ => none
  let iterations ← fillToml? iterationsBound standard.iterations iterations
  let recursion ← fillToml? recursionBound standard.recursion recursion
  return ⟨iterations, recursion⟩

def parseToml? (text : String) : Option Limits := do
  let document ← Toml.parse? text
  match Table.find sectionName document with
  | none => return standard
  | some value => ofToml? value

end ShellWalk.Limits
