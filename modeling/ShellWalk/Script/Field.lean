import ShellWalk.Script.Pattern

set_option autoImplicit false

namespace ShellWalk.Script

inductive Piece where
  | char (c : Char) (quoted splits : Bool)
  | quoteMark
  | cut (quoted : Bool)
  | edge (whole : Bool)
deriving DecidableEq, Repr

def Piece.glyph? : Piece → Option Glyph
  | .char c quoted _ => some ⟨c, quoted⟩
  | _ => none

def glyphs (pieces : List Piece) : Pattern := pieces.filterMap Piece.glyph?

def piecesText (pieces : List Piece) : String := String.ofList (glyphs pieces).text

def isBlank (c : Char) : Bool := c = ' ' || c = '\t' || c = '\n'

structure Splitter where
  finished : List Pattern
  current : List Glyph
  marked : Bool
  separating : Option Bool
  whole : Bool
  strict : Bool

namespace Splitter

def empty : Splitter := ⟨[], [], false, none, false, false⟩

def isFresh (s : Splitter) : Bool := s.current.isEmpty && !s.marked

def close (s : Splitter) : Splitter :=
  { s with finished := s.current.reverse :: s.finished, current := [], marked := false }

def add (s : Splitter) (glyph : Glyph) : Splitter :=
  { s with current := glyph :: s.current, separating := none }

def separate (s : Splitter) (blank : Bool) : Splitter :=
  match s.separating with
  | some joins =>
      if blank then s
      else if joins then { s with separating := some false }
      else { s.close with separating := some false }
  | none =>
      if blank && s.isFresh && !s.strict then s
      else { s.close with separating := if s.strict then none else some blank }

def step (separators : List Char) (s : Splitter) : Piece → Splitter
  | .char c quoted splits =>
      if splits && !quoted && separators.contains c then s.separate (isBlank c)
      else s.add ⟨c, quoted⟩
  | .quoteMark => { s with marked := true, separating := none }
  | .cut true => s.close
  | .cut false => s.separate true
  | .edge whole => { s with separating := none, whole := whole, strict := s.whole && !whole }

end Splitter

def fields (separators : List Char) (pieces : List Piece) : List Pattern :=
  let last := pieces.foldl (Splitter.step separators) .empty
  (if last.isFresh && !last.whole then last else last.close).finished.reverse

end ShellWalk.Script
