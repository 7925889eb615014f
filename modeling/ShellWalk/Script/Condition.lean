import ShellWalk.Script.Arithmetic
import ShellWalk.Script.Files

set_option autoImplicit false

namespace ShellWalk.Script.Condition

inductive Kind where
  | unary
  | binary
  | not
  | both
  | either
  | opening
  | closing
deriving DecidableEq, Repr

def kind? (word : String) : Option Kind :=
  if ["-r", "-w", "-x", "-e", "-f", "-d", "-c", "-b", "-p", "-u", "-g", "-k", "-s", "-t", "-z",
      "-n", "-h", "-O", "-G", "-L", "-S"].contains word then some .unary
  else if ["=", "!=", "<", ">", "-eq", "-ne", "-ge", "-gt", "-le", "-lt", "-nt", "-ot",
      "-ef"].contains word then some .binary
  else if word = "!" then some .not
  else if word = "-a" then some .both
  else if word = "-o" then some .either
  else if word = "(" then some .opening
  else if word = ")" then some .closing
  else none

inductive Lexeme where
  | ended
  | operand
  | operator (kind : Kind)
deriving DecidableEq, Repr

def standsAlone (words : List String) (place : Nat) : Bool :=
  match words[place + 1]? with
  | none => true
  | some next => words[place + 2]?.isSome && kind? next = some .binary

def lexeme (words : List String) (place : Nat) : Lexeme :=
  match words[place]? with
  | none => .ended
  | some word =>
      match kind? word with
      | some .unary => if standsAlone words place then .operand else .operator .unary
      | some .opening => if words[place + 1]?.isNone then .operand else .operator .opening
      | some kind => .operator kind
      | none => .operand

structure Surroundings where
  entry? : String → Option Entry
  isLink : String → Bool

def integer (word : String) : Except String Int :=
  let found := Arithmetic.numeral Arithmetic.decimalDigits word.toList
  match found.value with
  | some n =>
      if Text.inWord n && found.rest.dropWhile Arithmetic.isSpace = [] then .ok n
      else .error ("Illegal number: " ++ word)
  | none => .error ("Illegal number: " ++ word)

def hasContents : Entry → Bool
  | .directory | .program => true
  | .data text => text ≠ ""
  | .device => false

def isPlain : Entry → Bool
  | .program | .data _ => true
  | _ => false

def isRunnable : Entry → Bool
  | .directory | .program => true
  | _ => false

def unary (around : Surroundings) (operator operand : String) : Except String Bool :=
  if operator = "-z" then .ok (operand = "")
  else if operator = "-n" then .ok (operand ≠ "")
  else if operator = "-t" then do
    let _ ← integer operand
    return false
  else if operator = "-h" || operator = "-L" then .ok (around.isLink operand)
  else
    let holds : Entry → Bool :=
      if operator = "-f" then isPlain
      else if operator = "-d" then Entry.isDirectory
      else if operator = "-x" then isRunnable
      else if operator = "-s" then hasContents
      else if operator = "-c" then (· = .device)
      else if ["-e", "-r", "-w", "-O", "-G"].contains operator then fun _ => true
      else fun _ => false
    .ok ((around.entry? operand).any holds)

def comparison? (operator : String) : Option (Int → Int → Bool) :=
  if operator = "-eq" then some fun l r => l = r
  else if operator = "-ne" then some fun l r => l ≠ r
  else if operator = "-ge" then some fun l r => l ≥ r
  else if operator = "-gt" then some fun l r => l > r
  else if operator = "-le" then some fun l r => l ≤ r
  else if operator = "-lt" then some fun l r => l < r
  else none

def binary (around : Surroundings) (left operator right : String) : Except String Bool :=
  if operator = "=" then .ok (left = right)
  else if operator = "!=" then .ok (left ≠ right)
  else if operator = "<" then .ok (left < right)
  else if operator = ">" then .ok (right < left)
  else match comparison? operator with
    | some holds => do
        let l ← integer left
        let r ← integer right
        return holds l r
    | none =>
        .ok (operator = "-ef" && left = right && (around.entry? left).isSome)

abbrev Tester := StateT Nat (Except String)

variable (around : Surroundings) (words : List String)

def wordHere : Tester String := do return words.getD (← get) ""

def operandOf (operator : String) : Tester String := do
  modify (· + 1)
  match words[← get]? with
  | some word => return word
  | none => throw (operator ++ ": argument expected")

mutual

def disjunction : Nat → Lexeme → Tester Bool
  | 0, _ => return false
  | fuel + 1, first => do
      let left ← conjunction fuel first
      if lexeme words ((← get) + 1) = .operator .either then
        modify (· + 2)
        let right ← disjunction fuel (lexeme words (← get))
        return left || right
      else return left

def conjunction : Nat → Lexeme → Tester Bool
  | 0, _ => return false
  | fuel + 1, first => do
      let left ← negation fuel first
      if lexeme words ((← get) + 1) = .operator .both then
        modify (· + 2)
        let right ← conjunction fuel (lexeme words (← get))
        return left && right
      else return left

def negation : Nat → Lexeme → Tester Bool
  | 0, _ => return false
  | fuel + 1, first =>
      if first = .operator .not then do
        let next := lexeme words ((← get) + 1)
        if next ≠ .ended then modify (· + 1)
        return !(← negation fuel next)
      else primary fuel first

def primary : Nat → Lexeme → Tester Bool
  | 0, _ => return false
  | _ + 1, .ended => return false
  | fuel + 1, .operator .opening => do
      modify (· + 1)
      let next := lexeme words (← get)
      if next = .operator .closing then return false
      let value ← disjunction fuel next
      modify (· + 1)
      if lexeme words (← get) = .operator .closing then return value
      else throw "closing paren expected"
  | _ + 1, .operator .unary => do
      let operator ← wordHere words
      let operand ← operandOf words operator
      unary around operator operand
  | _ + 1, _ => do
      let left ← wordHere words
      if lexeme words ((← get) + 1) = .operator .binary then
        modify (· + 1)
        let operator ← wordHere words
        let right ← operandOf words operator
        binary around left operator right
      else return left ≠ ""

end

def whole (first : Lexeme) : Except String Bool := do
  let (value, place) ← disjunction around words (4 * words.length + 8) first 0
  match words[place]?, words[place + 1]? with
  | some word, some _ =>
      throw (if word = "" then "unexpected operator" else word ++ ": unexpected operator")
  | _, _ => return value

def status (whenTrue : Nat) : List String → Except String Nat
  | [] => .ok (1 - whenTrue)
  | first :: rest =>
      let words := first :: rest
      let outcome (value : Except String Bool) : Except String Nat :=
        value.map fun holds => if holds then whenTrue else 1 - whenTrue
      if words.length = 3 ∧ (words[1]?.bind kind?) = some .binary then
        outcome (whole around words .operand)
      else if words.length = 3 ∨ words.length = 4 then
        if first = "(" ∧ words.getLast? = some ")" then
          outcome (whole around rest.dropLast (lexeme rest.dropLast 0))
        else if first = "!" then status 1 rest
        else outcome (whole around words (lexeme words 0))
      else outcome (whole around words (lexeme words 0))

end ShellWalk.Script.Condition
