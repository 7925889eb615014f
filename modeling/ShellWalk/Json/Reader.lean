import ShellWalk.Json.Literal

set_option autoImplicit false

namespace ShellWalk.Json

inductive Token where
  | mark (c : Char)
  | string (units : List Unit16)
  | scalar (literal : Literal)

def isSpace (c : Char) : Bool := c = ' ' || c = '\t' || c = '\n' || c = '\r'

def isMark (c : Char) : Bool :=
  c = '\x7b' || c = '\x7d' || c = '[' || c = ']' || c = ',' || c = ':'

def isNumeralChar (c : Char) : Bool :=
  Text.isDigit c || c = '-' || c = '+' || c = '.' || c = 'e' || c = 'E'

def unescape? : Char → Option Char
  | '\x22' => some '\x22'
  | '\\' => some '\\'
  | '/' => some '/'
  | 'b' => some '\x08'
  | 'f' => some '\x0c'
  | 'n' => some '\n'
  | 'r' => some '\r'
  | 't' => some '\t'
  | _ => none

def scanString? (done : List Unit16) : List Char → Option (List Unit16 × List Char)
  | [] => none
  | '\x22' :: rest => some (done.reverse, rest)
  | '\\' :: 'u' :: a :: b :: c :: d :: rest =>
      match Text.natural? 16 [a, b, c, d] with
      | some code => scanString? (.unit code :: done) rest
      | none => none
  | '\\' :: c :: rest =>
      match unescape? c with
      | some plain => scanString? (.char plain :: done) rest
      | none => none
  | c :: rest => if c.toNat < 0x20 then none else scanString? (.char c :: done) rest

theorem scanString?_length (done : List Unit16) (text : List Char) (units : List Unit16)
    (rest : List Char) (found : scanString? done text = some (units, rest)) :
    rest.length < text.length := by
  fun_induction scanString? done text with
  | case1 => simp at found
  | case2 => simp_all
  | _ =>
      simp only [List.length_cons]
      grind

def wholePart? : List Char → Option (List Char)
  | [] => none
  | ['0'] => some ['0']
  | '0' :: _ => none
  | digits => if digits.all Text.isDigit then some digits else none

def isDigits (text : List Char) : Bool := !text.isEmpty && text.all Text.isDigit

def exponentPart? (text : List Char) : Option (Bool × List Char) :=
  let (negative, digits) := match text with
    | '-' :: rest => (true, rest)
    | '+' :: rest => (false, rest)
    | rest => (false, rest)
  if isDigits digits then some (negative, digits) else none

def isExponentMark (c : Char) : Bool := c = 'e' || c = 'E'

def numeral? (text : List Char) : Option Numeral := do
  let (negative, unsigned) := match text with
    | '-' :: rest => (true, rest)
    | rest => (false, rest)
  let mantissa := unsigned.takeWhile fun c => !isExponentMark c
  let exponent ← match unsigned.dropWhile fun c => !isExponentMark c with
    | [] => some none
    | _ :: rest => (exponentPart? rest).map some
  let whole ← wholePart? (mantissa.takeWhile (· ≠ '.'))
  match mantissa.dropWhile (· ≠ '.') with
  | [] => return ⟨negative, whole, [], exponent, exponent.isSome⟩
  | _ :: fraction =>
      if isDigits fraction then return ⟨negative, whole, fraction, exponent, true⟩ else none

def word? (text : List Char) : Option Literal :=
  if text = "null".toList then some .null
  else if text = "true".toList then some (.bool true)
  else if text = "false".toList then some (.bool false)
  else none

def lex? (done : List Token) (text : List Char) : Option (List Token) :=
  match text with
  | [] => some done.reverse
  | c :: rest =>
      if isSpace c then lex? done rest
      else if isMark c then lex? (.mark c :: done) rest
      else if c = '\x22' then
        match _ : scanString? [] rest with
        | some (units, after) => lex? (.string units :: done) after
        | none => none
      else if isNumeralChar c then
        match numeral? (c :: rest.takeWhile isNumeralChar) with
        | some numeral => lex? (.scalar (.number numeral) :: done) (rest.dropWhile isNumeralChar)
        | none => none
      else
        match word? (c :: rest.takeWhile Char.isAlpha) with
        | some literal => lex? (.scalar literal :: done) (rest.dropWhile Char.isAlpha)
        | none => none
termination_by text.length
decreasing_by
  · simp
  · simp
  · have := scanString?_length [] rest units after (by assumption)
    simp only [List.length_cons]
    omega
  · have := (List.dropWhile_sublist (l := rest) isNumeralChar).length_le
    simp only [List.length_cons]
    omega
  · have := (List.dropWhile_sublist (l := rest) Char.isAlpha).length_le
    simp only [List.length_cons]
    omega

-- A container that is still open, with what it holds so far in reverse.
inductive Frame where
  | array (items : List Literal)
  | object (members : List (List Unit16 × Literal)) (name : List Unit16)

mutual

def expectValue? (frames : List Frame) : List Token → Option Literal
  | .scalar literal :: rest => afterValue? frames literal rest
  | .string units :: rest => afterValue? frames (.string units) rest
  | .mark '[' :: .mark ']' :: rest => afterValue? frames (.array []) rest
  | .mark '[' :: rest => expectValue? (.array [] :: frames) rest
  | .mark '\x7b' :: .mark '\x7d' :: rest => afterValue? frames (.object []) rest
  | .mark '\x7b' :: .string name :: .mark ':' :: rest =>
      expectValue? (.object [] name :: frames) rest
  | _ => none

def afterValue? (frames : List Frame) (value : Literal) (tokens : List Token) : Option Literal :=
  match frames, tokens with
  | [], [] => some value
  | .array items :: outer, .mark ',' :: rest =>
      expectValue? (.array (value :: items) :: outer) rest
  | .array items :: outer, .mark ']' :: rest =>
      afterValue? outer (.array (value :: items).reverse) rest
  | .object members name :: outer, .mark ',' :: .string next :: .mark ':' :: rest =>
      expectValue? (.object ((name, value) :: members) next :: outer) rest
  | .object members name :: outer, .mark '\x7d' :: rest =>
      afterValue? outer (.object ((name, value) :: members).reverse) rest
  | _, _ => none

end

def Literal.parse? (text : String) : Option Literal :=
  (lex? [] text.toList).bind (expectValue? [])

def maxDepth : Nat := 127

def parse? (text : String) : Option Json := do
  let literal ← Literal.parse? text
  if literal.depth ≤ maxDepth then literal.value? else none

end ShellWalk.Json
