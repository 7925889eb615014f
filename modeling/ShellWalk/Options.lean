import ShellWalk.Json.Record
import ShellWalk.Mode
import ShellWalk.Table

set_option autoImplicit false

namespace ShellWalk

structure Options where
  mode : Mode
  environment : Table String
  strict : Bool
deriving DecidableEq, Repr

namespace Options

def standard : Options := ⟨.simulate, .empty, false⟩

def modeOf? : Json.Literal → Option Mode
  | .string units => (Json.textOf? [] units).bind Mode.ofName?
  | .object [(units, .null)] => (Json.textOf? [] units).bind Mode.ofName?
  | _ => none

def textOf? : Json.Literal → Option String
  | .string units => Json.textOf? [] units
  | _ => none

def environmentOf? : Json.Literal → Option (Table String)
  | .object members => do
      let named ← Json.namedMembers? members
      let entries ← named.mapM fun entry => do return (entry.1, ← textOf? entry.2)
      return .ofList entries
  | _ => none

def strictOf? : Json.Literal → Option Bool
  | .bool value => some value
  | _ => none

def parse? (text : String) : Option Options := do
  let document ← Json.Literal.parse? text
  match ← document.record? ["mode", "initial_env", "strict"] with
  | [mode, environment, strict] =>
      let mode ← Json.fill? modeOf? standard.mode mode
      let environment ← Json.fill? environmentOf? standard.environment environment
      let strict ← Json.fill? strictOf? standard.strict strict
      return ⟨mode, environment, strict⟩
  | _ => none

end Options

end ShellWalk
