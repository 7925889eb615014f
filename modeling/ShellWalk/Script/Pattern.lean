import ShellWalk.Script.Basic

set_option autoImplicit false

namespace ShellWalk.Script

structure Glyph where
  char : Char
  quoted : Bool
deriving DecidableEq, Repr

abbrev Pattern := List Glyph

namespace Pattern

def unescape : Pattern → Pattern
  | [] => []
  | [glyph] => [glyph]
  | glyph :: next :: rest =>
      if glyph = ⟨'\\', false⟩ then ⟨next.char, true⟩ :: unescape rest
      else glyph :: unescape (next :: rest)

def classes : List (String × (Char → Bool)) :=
  let graphic := fun c : Char => 32 < c.toNat && c.toNat < 127
  [("alnum", Char.isAlphanum), ("alpha", Char.isAlpha), ("digit", Char.isDigit),
    ("lower", Char.isLower), ("upper", Char.isUpper), ("blank", fun c => c = ' ' || c = '\t'),
    ("space", fun c => c = ' ' || (9 ≤ c.toNat && c.toNat ≤ 13)),
    ("cntrl", fun c => c.toNat < 32 || c.toNat = 127), ("graph", graphic),
    ("print", fun c => graphic c || c = ' '), ("punct", fun c => graphic c && !c.isAlphanum),
    ("xdigit", Text.isHex)]

def class? (pattern : Pattern) : Option ((Char → Bool) × Pattern) :=
  classes.findSome? fun entry =>
    let spelled := (":" ++ entry.1 ++ ":]").toList.map fun c => (⟨c, false⟩ : Glyph)
    if spelled.isPrefixOf pattern then some (entry.2, pattern.drop spelled.length) else none

def member (first : Glyph) (rest : Pattern) : (Char → Bool) × Pattern :=
  match if first = ⟨'[', false⟩ then class? rest else none with
  | some found => found
  | none =>
      match rest with
      | ⟨'-', false⟩ :: last :: others =>
          if last = ⟨']', false⟩ then ((· = first.char), rest)
          else (fun c => first.char ≤ c && c ≤ last.char, others)
      | _ => ((· = first.char), rest)

def members : Nat → Glyph → Pattern → Option ((Char → Bool) × Pattern)
  | 0, _, _ => none
  | fuel + 1, first, rest =>
      let (found, remaining) := member first rest
      match remaining with
      | [] => none
      | next :: others =>
          if next = ⟨']', false⟩ then some (found, others)
          else (members fuel next others).map fun more => (fun c => found c || more.1 c, more.2)

def set? (pattern : Pattern) : Option ((Char → Bool) × Pattern) :=
  let (inverted, body) := match pattern with
    | ⟨'!', false⟩ :: rest => (true, rest)
    | rest => (false, rest)
  match body with
  | [] => none
  | first :: rest =>
      (members pattern.length first rest).map fun found => (fun c => found.1 c != inverted, found.2)

def suffixes : List Char → List (List Char)
  | [] => [[]]
  | c :: rest => (c :: rest) :: suffixes rest

def fits (glyph : Glyph) (rest : Pattern) (text : List Char) : List (Pattern × List Char) :=
  let literally := match text with
    | c :: others => if c = glyph.char then [(rest, others)] else []
    | [] => []
  if glyph.quoted then literally
  else if glyph.char = '*' then (suffixes text).map fun others => (rest, others)
  else if glyph.char = '?' then (text.tail? |>.map fun others => (rest, others)).toList
  else if glyph.char = '[' then
    match set? rest, text with
    | some (inSet, after), c :: others => if inSet c then [(after, others)] else []
    | some _, [] => []
    | none, _ => literally
  else literally

def matchesIn : Nat → Pattern → List Char → Bool
  | _, [], text => text.isEmpty
  | 0, _, _ => false
  | fuel + 1, glyph :: rest, text =>
      (fits glyph rest text).any fun (remaining, others) => matchesIn fuel remaining others

def accepts (pattern : Pattern) (text : List Char) : Bool :=
  matchesIn pattern.length pattern.unescape text

def isMagic (pattern : Pattern) : Bool :=
  pattern.any fun glyph => !glyph.quoted && (glyph.char = '*' || glyph.char = '?' || glyph.char = '[')

def text (pattern : Pattern) : List Char := pattern.map Glyph.char

def firstPart (text : List Char) : List Char := text.takeWhile (· ≠ Char.ofNat 0)

def trimStart (pattern : Pattern) (longest : Bool) (text : List Char) : List Char :=
  let cuts := (List.range (text.length + 1)).filter fun n =>
    pattern.accepts (firstPart (text.take n))
  match if longest then cuts.getLast? else cuts.head? with
  | some n => text.drop n
  | none => text

def trimEnd (pattern : Pattern) (longest : Bool) (text : List Char) : List Char :=
  let places := (if longest then firstPart text else text).length + 1
  let cuts := (List.range places).filter fun n => pattern.accepts (firstPart (text.drop n))
  match if longest then cuts.head? else cuts.getLast? with
  | some n => text.take n
  | none => text

end Pattern

end ShellWalk.Script
