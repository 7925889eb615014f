set_option autoImplicit false

namespace ShellWalk

-- Both counted from zero, in 64 bits.
structure Position where
  row : UInt64
  col : UInt64
deriving DecidableEq, Repr, Inhabited

def Position.line (position : Position) : Nat := position.row.toNat

def Position.column (position : Position) : Nat := position.col.toNat

structure Span where
  start : Position
  stop : Position
deriving DecidableEq, Repr, Inhabited

structure Source where
  span : Span
  text : String
deriving DecidableEq, Repr, Inhabited

end ShellWalk
