import ShellWalk.Double
import ShellWalk.Scan
import ShellWalk.Toml.Basic

set_option autoImplicit false

namespace ShellWalk.Toml.Read

open Scan

def maxNesting : Nat := 79

def isSpace (c : Char) : Bool := c = ' ' || c = '\t'

def isPrintable (c : Char) : Bool := c = '\t' || (0x20 ≤ c.toNat && c.toNat ≠ 0x7F)

def isBasicChar (c : Char) : Bool := isPrintable c && c ≠ '\x22' && c ≠ '\\'

def isLiteralChar (c : Char) : Bool := isPrintable c && c ≠ '\x27'

def isBareChar (c : Char) : Bool := c.isAlphanum || c = '-' || c = '_'

def spaces : Scan Unit := do
  let _ ← run isSpace

def newline : Scan Char := do
  let _ ← optional (char '\r')
  char '\n'
  return '\n'

def comment : Scan Unit := do
  char '#'
  let _ ← run isPrintable

def gap : Scan Unit := do
  let _ ← many ((do let _ ← run1 isSpace) <|> do
    let _ ← optional comment
    let _ ← newline)

def codePoint (count : Nat) : Scan Char := fun text =>
  let found := text.take count
  if found.length = count then
    match Text.natural? 16 found with
    | some code => if code.isValidChar then some (Char.ofNat code, text.drop count) else none
    | none => none
  else none

def escape : Scan Char := do
  char '\\'
  let c ← satisfying fun _ => true
  match c with
  | 'b' => return '\x08'
  | 'f' => return '\x0c'
  | 'n' => return '\n'
  | 'r' => return '\r'
  | 't' => return '\t'
  | '\\' => return '\\'
  | '\x22' => return '\x22'
  | 'u' => codePoint 4
  | 'U' => codePoint 8
  | _ => failure

def basicString : Scan String := do
  char '\x22'
  let text ← many (satisfying isBasicChar <|> escape)
  char '\x22'
  return String.ofList text

def literalString : Scan String := do
  char '\x27'
  let text ← run isLiteralChar
  char '\x27'
  return String.ofList text

def innerQuotes (quote : Char) : Scan (List Char) := fun text =>
  let found := text.takeWhile (· = quote)
  if found.length = 1 ∨ found.length = 2 then some (found, text.dropWhile (· = quote)) else none

def closingQuotes (quote : Char) : Scan (List Char) := fun text =>
  let found := (text.takeWhile (· = quote)).take 5
  if 3 ≤ found.length then some (found.drop 3, text.drop found.length) else none

def lineJoin : Scan (List Char) := do
  char '\\'
  spaces
  let _ ← newline
  let _ ← many (newline <|> satisfying isSpace)
  return []

def multiline (quote : Char) (piece : Scan (List Char)) : Scan String := do
  literal [quote, quote, quote]
  let _ ← optional newline
  let pieces ← many (piece <|> (do return [← newline]) <|> innerQuotes quote)
  let last ← closingQuotes quote
  return String.ofList (pieces.flatten ++ last)

def multilineBasic : Scan String :=
  multiline '\x22' (run1 isBasicChar <|> lineJoin <|> do return [← escape])

def multilineLiteral : Scan String := multiline '\x27' (run1 isLiteralChar)

def stringValue : Scan String :=
  multilineBasic <|> basicString <|> multilineLiteral <|> literalString

def simpleKey : Scan String :=
  basicString <|> literalString <|> do return String.ofList (← run1 isBareChar)

def key : Scan (List String × String) := do
  spaces
  let first ← simpleKey
  spaces
  let others ← many (do
    char '.'
    spaces
    let part ← simpleKey
    spaces
    return part)
  let parts := first :: others
  if maxNesting < parts.length then failure
  else return (parts.dropLast, parts.getLast?.getD first)

def digitRun (isDigit : Char → Bool) : Scan (List Char) := do
  let first ← satisfying isDigit
  let others ← many (do
    let _ ← optional (char '_')
    satisfying isDigit)
  return first :: others

def decimal : Scan (List Char) := do
  let sign ← optional (satisfying fun c => c = '+' || c = '-')
  let leading ← peek?
  let digits ← if leading = some '0' then return [← satisfying Text.isDigit]
    else digitRun Text.isDigit
  return sign.toList ++ digits

def wordOf (base : Nat) (spelling : List Char) : Scan Toml :=
  match Text.word? base spelling with
  | some n => return .integer n
  | none => failure

def integer : Scan Toml :=
  (do literal ['0', 'x']; wordOf 16 (← digitRun Text.isHex)) <|>
  (do literal ['0', 'o']; wordOf 8 (← digitRun Text.isOctal)) <|>
  (do literal ['0', 'b']; wordOf 2 (← digitRun fun c => c = '0' || c = '1')) <|>
  (do wordOf 10 (← decimal))

def fraction : Scan (List Char) := do
  char '.'
  digitRun Text.isDigit

def exponent : Scan (List Char) := do
  let _ ← satisfying fun c => c = 'e' || c = 'E'
  let sign ← optional (satisfying fun c => c = '+' || c = '-')
  return sign.toList ++ (← digitRun Text.isDigit)

def farExponent : Int := 400

def overflows (whole fraction exponent : List Char) : Bool :=
  let digits := (Text.natural? 10 (whole ++ fraction)).getD 0
  let power := (Text.integer? 10 exponent).getD 0 - (fraction.length : Int)
  let size := power + (Nat.toDigits 10 digits).length
  if digits = 0 then false
  else if farExponent < size then true
  else if size < -farExponent then false
  else (Double.ofDecimal? digits power).isNone

def decimalFloat : Scan Toml := do
  let whole ← decimal
  let fractional ← optional fraction
  let scaled ← optional exponent
  if fractional.isNone ∧ scaled.isNone then failure
  else
    let unsigned := whole.filter Text.isDigit
    if whole.head? ≠ some '-' ∧
        overflows unsigned (fractional.getD []) (scaled.getD ['0']) then failure
    else
      return .float (whole ++ fractional.elim [] ('.' :: ·) ++ scaled.elim [] ('e' :: ·))

def specialFloat : Scan Toml := do
  let sign ← optional (satisfying fun c => c = '+' || c = '-')
  let name ← (do literal "inf".toList; return "inf".toList) <|>
    (do literal "nan".toList; return "nan".toList)
  return .float (sign.toList ++ name)

def isLeapYear (year : Nat) : Bool := year % 4 = 0 && (year % 100 ≠ 0 || year % 400 = 0)

def daysIn (year month : Nat) : Nat :=
  if month = 2 then if isLeapYear year then 29 else 28
  else if month = 4 ∨ month = 6 ∨ month = 9 ∨ month = 11 then 30
  else 31

def date : Scan Unit := do
  let year ← digits 4 0 9999
  char '-'
  let month ← digits 2 1 12
  char '-'
  let _ ← digits 2 1 (daysIn year month)

def time : Scan Unit := do
  let _ ← digits 2 0 23
  char ':'
  let _ ← digits 2 0 59
  char ':'
  let _ ← digits 2 0 60
  let _ ← optional (do
    char '.'
    run1 Text.isDigit)

def offset : Scan Unit :=
  (do let _ ← satisfying fun c => c = 'Z' || c = 'z') <|> do
    let _ ← satisfying fun c => c = '+' || c = '-'
    let _ ← digits 2 0 23
    char ':'
    let _ ← digits 2 0 59

def moment : Scan Toml := fun text =>
  let scan : Scan Unit := (do
    date
    let _ ← optional (do
      let _ ← satisfying fun c => c = 'T' || c = 't' || c = ' '
      time
      optional offset)) <|> time
  match scan text with
  | some (_, rest) => some (.moment (text.take (text.length - rest.length)), rest)
  | none => none

def boolean : Scan Toml :=
  (do literal "true".toList; return .boolean true) <|>
  (do literal "false".toList; return .boolean false)

def scalar : Scan Toml :=
  (do return .string (← stringValue)) <|> moment <|> decimalFloat <|> integer <|>
    specialFloat <|> boolean

def items (value : Scan Toml) : Scan (List Toml) := do
  gap
  let first ← optional value
  gap
  let others ← if first.isNone then pure [] else many (do
    char ','
    gap
    let item ← value
    gap
    return item)
  if first.isSome then
    let _ ← optional (char ',')
    gap
  char ']'
  return first.toList ++ others

def pair (value : Scan Toml) : Scan ((List String × String) × Toml) := do
  let name ← key
  char '='
  spaces
  let bound ← value
  spaces
  return (name, bound)

def pairs (value : Scan Toml) : Scan (List ((List String × String) × Toml)) := do
  spaces
  match ← optional (pair value) with
  | none =>
      char '\x7d'
      return []
  | some first =>
      let others ← many (do
        char ','
        pair value)
      char '\x7d'
      return first :: others

def bindAll? (origin : Origin) (entries : Entries) :
    List ((List String × String) × Toml) → Option Entries
  | [] => some entries
  | ((path, name), value) :: rest =>
      match bind? origin entries path name value with
      | some bound => bindAll? origin bound rest
      | none => none

def value : Nat → Scan Toml
  | 0 => scalar
  | left + 1 => do
      match ← peek? with
      | some '[' =>
          char '['
          return .array (← items (value left))
      | some '\x7b' =>
          char '\x7b'
          let found ← pairs (value left)
          match bindAll? .inline [] found with
          | some entries => return .table .inline entries
          | none => failure
      | _ => scalar

end ShellWalk.Toml.Read
