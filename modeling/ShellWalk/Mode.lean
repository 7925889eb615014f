set_option autoImplicit false

namespace ShellWalk

inductive Mode where
  | simulate
  | capture
  | real
deriving DecidableEq, Repr, Inhabited

namespace Mode

def name : Mode → String
  | .simulate => "simulate"
  | .capture => "capture"
  | .real => "real"

def ofName? : String → Option Mode
  | "simulate" => some .simulate
  | "capture" => some .capture
  | "real" => some .real
  | _ => none

structure Unknown where
  text : String
deriving DecidableEq, Repr

def Unknown.message (unknown : Unknown) : String :=
  "unknown execution mode '" ++ unknown.text ++ "' (expected simulate, capture or real)"

def parse (text : String) : Except Unknown Mode :=
  match ofName? (String.ofList (text.toList.map Char.toLower)) with
  | some mode => .ok mode
  | none => .error ⟨text⟩

end Mode

end ShellWalk
