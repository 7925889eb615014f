import ShellWalk.Script.Basic
import ShellWalk.Table

set_option autoImplicit false

namespace ShellWalk.Script.Arithmetic

def wrap (n : Int) : Int := Int.bmod n Text.wordSize

def clamp (n : Int) : Int :=
  if n < -(Text.halfWord : Int) then -(Text.halfWord : Int)
  else if n < Text.halfWord then n else (Text.halfWord : Int) - 1

def basedDigits : List Char → Nat × List Char × List Char
  | '0' :: x :: rest =>
      if (x = 'x' ∨ x = 'X') ∧ rest.head?.any Text.isHex then
        (16, rest.takeWhile Text.isHex, rest.dropWhile Text.isHex)
      else
        (8, ('0' :: x :: rest).takeWhile Text.isOctal, ('0' :: x :: rest).dropWhile Text.isOctal)
  | text => (10, text.takeWhile Text.isDigit, text.dropWhile Text.isDigit)

def isSpace (c : Char) : Bool :=
  c = ' ' || c = '\t' || c = '\n' || c = '\x0b' || c = '\x0c' || c = '\r'

structure Numeral where
  value : Option Int
  rest : List Char

def signOf : List Char → Bool × List Char
  | '-' :: rest => (true, rest)
  | '+' :: rest => (false, rest)
  | text => (false, text)

def numeral (digitsOf : List Char → Nat × List Char × List Char) (text : List Char) : Numeral :=
  let (negative, unsigned) := signOf (text.dropWhile isSpace)
  let (base, digits, rest) := digitsOf unsigned
  match Text.natural? base digits with
  | some n => ⟨some (if negative then -(n : Int) else n), rest⟩
  | none => ⟨none, text⟩

def decimalDigits (text : List Char) : Nat × List Char × List Char :=
  (10, text.takeWhile Text.isDigit, text.dropWhile Text.isDigit)

def variableValue? (text : List Char) : Option Int :=
  let found := numeral basedDigits text
  if found.rest.dropWhile isSpace ≠ [] then none
  else match found.value with
    | none => some 0
    | some n => if Text.inWord n then some n else none

inductive Binary where
  | mul
  | div
  | rem
  | add
  | sub
  | shiftLeft
  | shiftRight
  | lt
  | le
  | gt
  | ge
  | eq
  | ne
  | bitAnd
  | bitXor
  | bitOr
deriving DecidableEq, Repr

def Binary.rank : Binary → Nat
  | .mul | .div | .rem => 0
  | .add | .sub => 1
  | .shiftLeft | .shiftRight => 2
  | .lt | .le | .gt | .ge => 3
  | .eq | .ne => 4
  | .bitAnd => 5
  | .bitXor => 6
  | .bitOr => 7

inductive Token where
  | number (value : Int)
  | name (name : String)
  | binary (operator : Binary)
  | assign (operator : Option Binary)
  | both
  | either
  | not
  | complement
  | question
  | colon
  | opening
  | closing
  | unknown
deriving DecidableEq, Repr

def operators : List (String × Token) :=
  [("<<=", .assign (some .shiftLeft)), (">>=", .assign (some .shiftRight)), ("<<", .binary .shiftLeft),
    (">>", .binary .shiftRight), ("<=", .binary .le), (">=", .binary .ge), ("==", .binary .eq),
    ("!=", .binary .ne), ("&&", .both), ("||", .either), ("*=", .assign (some .mul)),
    ("/=", .assign (some .div)), ("%=", .assign (some .rem)), ("+=", .assign (some .add)),
    ("-=", .assign (some .sub)), ("&=", .assign (some .bitAnd)), ("^=", .assign (some .bitXor)),
    ("|=", .assign (some .bitOr)), ("<", .binary .lt), (">", .binary .gt), ("=", .assign none),
    ("*", .binary .mul), ("/", .binary .div), ("%", .binary .rem), ("+", .binary .add),
    ("-", .binary .sub), ("&", .binary .bitAnd), ("^", .binary .bitXor), ("|", .binary .bitOr),
    ("!", .not), ("~", .complement), ("?", .question), (":", .colon), ("(", .opening),
    (")", .closing)]

def operator? (text : List Char) : Option (Token × List Char) :=
  (operators.find? fun entry => entry.1.toList.isPrefixOf text).map fun entry =>
    (entry.2, text.drop entry.1.length)

def token (text : List Char) : Token × List Char :=
  if text.head?.any Text.isDigit then
    let (base, digits, rest) := basedDigits text
    (.number (clamp ((Text.natural? base digits).getD 0 : Nat)), rest)
  else if text.head?.any isNameStart then
    (.name (String.ofList (text.takeWhile isNameChar)), text.dropWhile isNameChar)
  else (operator? text).getD (.unknown, [])

-- Each round takes at least one character, so that the length of the text is fuel enough.
def tokensIn : Nat → List Char → List Token
  | 0, _ => []
  | fuel + 1, text =>
      match text.dropWhile fun c => c = ' ' || c = '\t' || c = '\n' with
      | [] => []
      | c :: rest => (token (c :: rest)).1 :: tokensIn fuel (token (c :: rest)).2

def tokens (text : List Char) : List Token := tokensIn text.length text

inductive Expression where
  | number (value : Int)
  | name (name : String)
  | negate (operand : Expression)
  | not (operand : Expression)
  | complement (operand : Expression)
  | binary (operator : Binary) (left right : Expression)
  | both (left right : Expression)
  | either (left right : Expression)
  | choice (condition consequence alternative : Expression)
  | assign (name : String) (operator : Option Binary) (value : Expression)
  | malformed (reason : String)
  | broken (first : Expression) (reason : String)
deriving DecidableEq, Repr

inductive Level where
  | assignment
  | conditional
  | disjunction
  | conjunction
  | operators (rank : Nat)
  | primary

abbrev Parsed := Expression × List Token

def chain (operand : List Token → Parsed) (rank : Nat) : Nat → Parsed → Parsed
  | 0, parsed => parsed
  | fuel + 1, (left, .binary operator :: rest) =>
      if operator.rank = rank then
        let (right, remaining) := operand rest
        chain operand rank fuel (.binary operator left right, remaining)
      else (left, .binary operator :: rest)
  | _ + 1, parsed => parsed

def read (parse : Level → List Token → Parsed) : Level → List Token → Parsed
  | .assignment, .name name :: .assign operator :: rest =>
      let (value, remaining) := parse .assignment rest
      (.assign name operator value, remaining)
  | .assignment, text => parse .conditional text
  | .conditional, text =>
      match parse .disjunction text with
      | (condition, .question :: rest) =>
          match parse .assignment rest with
          | (consequence, .colon :: others) =>
              let (alternative, remaining) := parse .conditional others
              (.choice condition consequence alternative, remaining)
          | (consequence, remaining) =>
              (.choice condition (.broken consequence "expecting ':'") (.number 0), remaining)
      | parsed => parsed
  | .disjunction, text =>
      match parse .conjunction text with
      | (left, .either :: rest) =>
          let (right, remaining) := parse .disjunction rest
          (.either left right, remaining)
      | parsed => parsed
  | .conjunction, text =>
      match parse (.operators 7) text with
      | (left, .both :: rest) =>
          let (right, remaining) := parse .conjunction rest
          (.both left right, remaining)
      | parsed => parsed
  | .operators rank, text =>
      let operand := parse (if rank = 0 then .primary else .operators (rank - 1))
      chain operand rank text.length (operand text)
  | .primary, .number value :: rest => (.number value, rest)
  | .primary, .name name :: rest => (.name name, rest)
  | .primary, .opening :: rest =>
      match parse .assignment rest with
      | (inner, .closing :: remaining) => (inner, remaining)
      | (inner, remaining) => (.broken inner "expecting ')'", remaining)
  | .primary, .binary .add :: rest => parse .primary rest
  | .primary, .binary .sub :: rest =>
      let (operand, remaining) := parse .primary rest
      (.negate operand, remaining)
  | .primary, .not :: rest =>
      let (operand, remaining) := parse .primary rest
      (.not operand, remaining)
  | .primary, .complement :: rest =>
      let (operand, remaining) := parse .primary rest
      (.complement operand, remaining)
  | .primary, rest => (.malformed "expecting primary", rest)

def readAt : Nat → Level → List Token → Parsed
  | 0, _, rest => (.malformed "expecting primary", rest)
  | depth + 1, level, rest => read (readAt depth) level rest

-- Between two tokens lie fewer than sixteen levels of the grammar.
def expression (text : List Char) : Expression :=
  let found := tokens text
  match readAt (16 * (found.length + 1)) .assignment found with
  | (whole, []) => whole
  | (whole, _) => .broken whole "expecting EOF"

inductive Failure where
  | expression (reason : String)
  | illegalNumber (text : String)
deriving DecidableEq, Repr

abbrev Calculation := EStateM Failure (Table Int)

def truth (b : Bool) : Int := if b then 1 else 0

def shift (n : Int) : Nat := (n % 64).toNat

def bitwise (f : Nat → Nat → Nat) (left right : Int) : Int :=
  wrap (f (Text.bits left) (Text.bits right) : Nat)

def Binary.apply (left right : Int) : Binary → Calculation Int
  | .mul => return wrap (left * right)
  | .div => if right = 0 then throw (.expression "division by zero") else return wrap (left.tdiv right)
  | .rem => if right = 0 then throw (.expression "division by zero") else return left.tmod right
  | .add => return wrap (left + right)
  | .sub => return wrap (left - right)
  | .shiftLeft => return wrap (left * Nat.pow 2 (shift right))
  | .shiftRight => return left / Nat.pow 2 (shift right)
  | .lt => return truth (left < right)
  | .le => return truth (left ≤ right)
  | .gt => return truth (right < left)
  | .ge => return truth (right ≤ left)
  | .eq => return truth (left = right)
  | .ne => return truth (left ≠ right)
  | .bitAnd => return bitwise Nat.land left right
  | .bitXor => return bitwise Nat.xor left right
  | .bitOr => return bitwise Nat.lor left right

def lookup (variableText : String → String) (name : String) : Calculation Int := do
  match (← get).get? name with
  | some n => return n
  | none =>
      match variableValue? (variableText name).toList with
      | some n => return n
      | none => throw (.illegalNumber (variableText name))

def Expression.value (variableText : String → String) (passed : Bool) :
    Expression → Calculation Int
  | .number n => return n
  | .name label => if passed then return 0 else lookup variableText label
  | .negate operand => return wrap (-(← operand.value variableText passed))
  | .not operand => return truth ((← operand.value variableText passed) = 0)
  | .complement operand => return -(← operand.value variableText passed) - 1
  | .binary operator left right => do
      let l ← left.value variableText passed
      let r ← right.value variableText passed
      if passed then return r else operator.apply l r
  | .both left right => do
      let l ← left.value variableText passed
      let r ← right.value variableText (passed || l = 0)
      return truth (l ≠ 0 && r ≠ 0)
  | .either left right => do
      let l ← left.value variableText passed
      let r ← right.value variableText (passed || l ≠ 0)
      return truth (l ≠ 0 || r ≠ 0)
  | .choice condition consequence alternative => do
      let c ← condition.value variableText passed
      let t ← consequence.value variableText (passed || c = 0)
      let e ← alternative.value variableText (passed || c ≠ 0)
      return if c ≠ 0 then t else e
  | .assign label operator operand => do
      let n ← operand.value variableText passed
      if passed then return n
      let result ← match operator with
        | none => pure n
        | some operator => operator.apply (← lookup variableText label) n
      modify (·.insert label result)
      return result
  | .malformed reason => throw (.expression reason)
  | .broken first reason => do
      let _ ← first.value variableText passed
      throw (.expression reason)

def evaluate (variableText : String → String) (text : List Char) :
    Except Failure (Int × Table Int) :=
  match ((expression text).value variableText false).run .empty with
  | .ok value assigned => .ok (value, assigned)
  | .error failure _ => .error failure

end ShellWalk.Script.Arithmetic
