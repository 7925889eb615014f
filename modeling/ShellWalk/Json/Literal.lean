import ShellWalk.Json.Basic
import ShellWalk.Text.Numeral

set_option autoImplicit false

namespace ShellWalk.Json

structure Numeral where
  negative : Bool
  whole : List Char
  fraction : List Char
  exponent : Option (Bool × List Char)
  inexact : Bool
deriving DecidableEq, Repr

inductive Unit16 where
  | char (c : Char)
  | unit (code : Nat)
deriving DecidableEq, Repr

inductive Literal where
  | null
  | bool (value : Bool)
  | number (numeral : Numeral)
  | string (units : List Unit16)
  | array (items : List Literal)
  | object (members : List (List Unit16 × Literal))
deriving Inhabited

mutual

def Literal.depth : Literal → Nat
  | .array items => depthOfItems items + 1
  | .object members => depthOfMembers members + 1
  | _ => 0

def depthOfItems : List Literal → Nat
  | [] => 0
  | item :: rest => max item.depth (depthOfItems rest)

def depthOfMembers : List (List Unit16 × Literal) → Nat
  | [] => 0
  | (_, value) :: rest => max value.depth (depthOfMembers rest)

end

def textOf? (done : List Char) : List Unit16 → Option String
  | [] => some (String.ofList done.reverse)
  | .char c :: rest => textOf? (c :: done) rest
  | .unit high :: .unit low :: rest =>
      if 0xD800 ≤ high ∧ high < 0xDC00 then
        if 0xDC00 ≤ low ∧ low < 0xE000 then
          textOf? (Char.ofNat (0x10000 + (high - 0xD800) * 0x400 + (low - 0xDC00)) :: done) rest
        else none
      else if 0xDC00 ≤ high ∧ high < 0xE000 then none
      else textOf? (Char.ofNat high :: done) (.unit low :: rest)
  | .unit code :: rest =>
      if 0xD800 ≤ code ∧ code < 0xE000 then none else textOf? (Char.ofNat code :: done) rest

def absorb (significand : Nat) : List Char → Nat × Nat
  | [] => (significand, 0)
  | c :: rest =>
      let next := significand * 10 + (Text.digit? 10 c).getD 0
      if next < Text.wordSize then absorb next rest else (significand, rest.length + 1)

def maxPower : Nat := 308

-- `significand * 10 ^ exponent`, by one operation with a rounded power of ten, or two for very
-- small numbers.
def scaled? (significand : Nat) (exponent : Int) : Option Double := do
  if significand = 0 then return .zero
  let start ← Double.ofNat? significand
  if 0 ≤ exponent then
    if exponent ≤ maxPower then
      start.mul? (← Double.ofNat? (Nat.pow 10 exponent.natAbs))
    else none
  else if exponent.natAbs ≤ maxPower then
    start.div? (← Double.ofNat? (Nat.pow 10 exponent.natAbs))
  else if exponent.natAbs ≤ 2 * maxPower then
    let smaller ← start.div? (← Double.ofNat? (Nat.pow 10 maxPower))
    smaller.div? (← Double.ofNat? (Nat.pow 10 (exponent.natAbs - maxPower)))
  else return .zero

def maxWrittenExponent : Nat := Nat.pow 2 31 - 1

def Numeral.double? (numeral : Numeral) : Option Double :=
  let (whole, dropped) := absorb 0 numeral.whole
  let (significand, unused) := absorb whole numeral.fraction
  let shift : Int := (dropped : Int) - ((numeral.fraction.length - unused : Nat) : Int)
  match numeral.exponent with
  | none => scaled? significand shift
  | some (negative, digits) =>
      let written := (Text.digitsFrom? 10 0 digits).getD 0
      if written ≤ maxWrittenExponent then
        scaled? significand (if negative then shift - written else shift + written)
      else if significand = 0 ∨ negative then some .zero
      else none

def Numeral.value? (numeral : Numeral) : Option Number :=
  let whole := (Text.digitsFrom? 10 0 numeral.whole).getD 0
  if numeral.inexact = false ∧ numeral.negative = false ∧ whole < Text.wordSize then
    some (.integer whole)
  else if numeral.inexact = false ∧ numeral.negative ∧ 0 < whole ∧ whole ≤ Text.halfWord then
    some (.integer (-(whole : Int)))
  else numeral.double?.map (.double numeral.negative)

mutual

def Literal.value? : Literal → Option Json
  | .null => some .null
  | .bool value => some (.bool value)
  | .number numeral => numeral.value?.map .number
  | .string units => (textOf? [] units).map .string
  | .array items => (valuesOf? items).map .array
  | .object members => (membersOf? members).map .object

def valuesOf? : List Literal → Option (List Json)
  | [] => some []
  | item :: rest => do
      let first ← item.value?
      let others ← valuesOf? rest
      return first :: others

def membersOf? : List (List Unit16 × Literal) → Option (List (String × Json))
  | [] => some []
  | (name, value) :: rest => do
      let key ← textOf? [] name
      let first ← value.value?
      let others ← membersOf? rest
      return (key, first) :: others

end

end ShellWalk.Json
