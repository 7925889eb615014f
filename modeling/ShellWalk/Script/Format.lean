import ShellWalk.Double
import ShellWalk.Script.Arithmetic

set_option autoImplicit false

namespace ShellWalk.Script

structure Layout where
  left : Bool
  plus : Bool
  blank : Bool
  alternate : Bool
  zeros : Bool
  width : Nat
  precision : Option Nat
deriving DecidableEq, Repr

namespace Layout

def fill (layout : Layout) (body : List Char) : List Char :=
  let missing := List.replicate (layout.width - body.length) ' '
  if layout.left then body ++ missing else missing ++ body

def text (layout : Layout) (value : List Char) : List Char :=
  layout.fill (layout.precision.elim value fun size => value.take size)

def number (layout : Layout) (zeros : Bool) (front digits : List Char) : List Char :=
  if zeros && !layout.left then
    front ++ List.replicate (layout.width - front.length - digits.length) '0' ++ digits
  else layout.fill (front ++ digits)

def sign (layout : Layout) (negative : Bool) : List Char :=
  if negative then ['-'] else if layout.plus then ['+'] else if layout.blank then [' '] else []

def digits (layout : Layout) (base n : Nat) : List Char :=
  let plain := if n = 0 ∧ layout.precision = some 0 then [] else Nat.toDigits base n
  List.replicate (layout.precision.getD 1 - plain.length) '0' ++ plain

def signedInteger (layout : Layout) (n : Int) : List Char :=
  layout.number (layout.zeros && layout.precision.isNone) (layout.sign (n < 0))
    (layout.digits 10 n.natAbs)

def unsignedInteger (layout : Layout) (conversion : Char) (n : Nat) : List Char :=
  let body (front digits : List Char) : List Char :=
    layout.number (layout.zeros && layout.precision.isNone) front digits
  if conversion = 'o' then
    let plain := layout.digits 8 n
    body [] (if layout.alternate && plain.head? ≠ some '0' then '0' :: plain else plain)
  else if conversion = 'x' then
    body (if layout.alternate && n ≠ 0 then ['0', 'x'] else []) (layout.digits 16 n)
  else if conversion = 'X' then
    body (if layout.alternate && n ≠ 0 then ['0', 'X'] else [])
      ((layout.digits 16 n).map Char.toUpper)
  else body [] (layout.digits 10 n)

end Layout

inductive Real where
  | finite (negative : Bool) (size : Double)
  | infinite (negative : Bool)
  | undefined (negative : Bool)
deriving DecidableEq, Repr

namespace Real

def isNegative : Real → Bool
  | .finite negative _ | .infinite negative | .undefined negative => negative

def fixed (size : Double) (places : Nat) : List Char × List Char :=
  let scaled := Double.roundHalfEven (size.numerator * Nat.pow 10 places) size.denominator
  let plain := Nat.toDigits 10 scaled
  let padded := List.replicate (places + 1 - plain.length) '0' ++ plain
  (padded.take (padded.length - places), padded.drop (padded.length - places))

def significant (size : Double) (count : Nat) : List Char × Int :=
  if size.significand = 0 then (List.replicate count '0', 0)
  else
    let (digits, exponent) := size.decimalOf count
    if digits = Nat.pow 10 count then
      (Nat.toDigits 10 (Nat.pow 10 (count - 1)), exponent + count)
    else (Nat.toDigits 10 digits, exponent + count - 1)

def withPoint (alternate : Bool) (whole fraction : List Char) : List Char :=
  if fraction = [] && !alternate then whole else whole ++ '.' :: fraction

def exponentText (mark : Char) (exponent : Int) : List Char :=
  let plain := Text.decimal exponent.natAbs
  mark :: (if exponent < 0 then '-' else '+') ::
    (List.replicate (2 - plain.length) '0' ++ plain)

def dropZeros (fraction : List Char) : List Char :=
  (fraction.reverse.dropWhile (· = '0')).reverse

def scientific (alternate : Bool) (mark : Char) (digits : List Char) (exponent : Int) : List Char :=
  withPoint alternate (digits.take 1) (digits.drop 1) ++ exponentText mark exponent

def general (alternate : Bool) (mark : Char) (size : Double) (precision : Nat) : List Char :=
  let count := max precision 1
  let (digits, exponent) := significant size count
  let trim (fraction : List Char) : List Char := if alternate then fraction else dropZeros fraction
  if exponent < -4 ∨ (count : Int) ≤ exponent then
    scientific alternate mark (digits.take 1 ++ trim (digits.drop 1)) exponent
  else
    let (whole, fraction) := fixed size ((count : Int) - 1 - exponent).toNat
    withPoint alternate whole (trim fraction)

def hexadecimal (alternate : Bool) (precision : Option Nat) (size : Double) : List Char :=
  let places := Double.precision - 1
  let exponent := if size.significand = 0 then 0 else size.exponent + places
  let kept := precision.getD (places / 4)
  let rounded := if places / 4 ≤ kept then size.significand * Nat.pow 16 (kept - places / 4)
    else Double.roundHalfEven size.significand (Nat.pow 16 (places / 4 - kept))
  let plain := Nat.toDigits 16 (rounded % Nat.pow 16 kept)
  let padded := List.replicate (kept - plain.length) '0' ++ plain
  let fraction := if precision.isSome then padded.take kept else dropZeros padded
  let sign := if exponent < 0 then '-' else '+'
  withPoint alternate (Nat.toDigits 16 (rounded / Nat.pow 16 kept)) fraction ++
    'p' :: sign :: Text.decimal exponent.natAbs

def body (layout : Layout) (conversion : Char) (size : Double) : List Char :=
  let precision := layout.precision.getD 6
  let kind := conversion.toLower
  let mark := if conversion.isUpper then 'E' else 'e'
  if kind = 'f' then
    let (whole, fraction) := fixed size precision
    withPoint layout.alternate whole fraction
  else if kind = 'e' then
    let (digits, exponent) := significant size (precision + 1)
    scientific layout.alternate mark digits exponent
  else general layout.alternate mark size precision

def render (layout : Layout) (conversion : Char) (value : Real) : List Char :=
  let cased (text : String) : List Char :=
    (if conversion.isUpper then text.toUpper else text).toList
  let front := layout.sign value.isNegative
  match value with
  | .finite _ size =>
      if conversion.toLower = 'a' then
        layout.number layout.zeros (front ++ cased "0x")
          (cased (String.ofList (hexadecimal layout.alternate layout.precision size)))
      else layout.number layout.zeros front (body layout conversion size)
  | .infinite _ => layout.fill (front ++ cased "inf")
  | .undefined _ => layout.fill (front ++ cased "nan")

structure Read where
  value : Real
  outOfRange : Bool
  rest : List Char

def exponentOf (mark : Char) (text : List Char) : Int × List Char :=
  match text with
  | [] => (0, text)
  | first :: rest =>
      if first.toLower = mark then
        let (negative, unsigned) := Arithmetic.signOf rest
        match Text.natural? 10 (unsigned.takeWhile Text.isDigit) with
        | some n => (if negative then -(n : Int) else n, unsigned.dropWhile Text.isDigit)
        | none => (0, text)
      else (0, text)

def startsWith (word : String) (text : List Char) : Bool :=
  word.toList.isPrefixOf (text.map Char.toLower)

def isTiny (digits : Nat) (scale : Int) (size : Double) : Bool :=
  let exact := if scale < 0 then
      digits * size.denominator = size.numerator * Nat.pow 10 scale.natAbs
    else digits * Nat.pow 10 scale.natAbs * size.denominator = size.numerator
  size.significand < Nat.pow 2 (Double.precision - 1) && !exact

def spelled? (base : Nat) (isDigit : Char → Bool) (mark : Char) (text : List Char) :
    Option (Nat × Nat × Int × List Char) :=
  let whole := text.takeWhile isDigit
  let (fraction, rest) := match text.dropWhile isDigit with
    | '.' :: rest => (rest.takeWhile isDigit, rest.dropWhile isDigit)
    | rest => ([], rest)
  (Text.natural? base (whole ++ fraction)).map fun digits =>
    let (exponent, remaining) := exponentOf mark rest
    (digits, fraction.length, max (-5000) (min 5000 exponent), remaining)

def ofDecimal (negative : Bool) (digits : Nat) (scale : Int) (rest : List Char) : Read :=
  match Double.ofDecimal? digits scale with
  | some size => ⟨.finite negative size, isTiny digits scale size, rest⟩
  | none => ⟨.infinite negative, true, rest⟩

def ofBinary (negative : Bool) (digits : Nat) (power : Int) (rest : List Char) : Read :=
  if power < 0 then ofDecimal negative (digits * Nat.pow 5 power.natAbs) power rest
  else ofDecimal negative (digits * Nat.pow 2 power.natAbs) 0 rest

def read? (text : List Char) : Option Read :=
  let (negative, unsigned) := Arithmetic.signOf (text.dropWhile Arithmetic.isSpace)
  let decimal := (spelled? 10 Text.isDigit 'e' unsigned).map fun (digits, places, exponent, rest) =>
    ofDecimal negative digits (exponent - places) rest
  if startsWith "infinity" unsigned then some ⟨.infinite negative, false, unsigned.drop 8⟩
  else if startsWith "inf" unsigned then some ⟨.infinite negative, false, unsigned.drop 3⟩
  else if startsWith "nan" unsigned then some ⟨.undefined negative, false, unsigned.drop 3⟩
  else if startsWith "0x" unsigned then
    match spelled? 16 Text.isHex 'p' (unsigned.drop 2) with
    | some (digits, places, exponent, rest) =>
        some (ofBinary negative digits (exponent - 4 * places) rest)
    | none => decimal
  else decimal

end Real

def letterEscapes : List (Char × Char) :=
  [('\\', '\\'), ('a', '\x07'), ('b', '\x08'), ('e', '\x1b'), ('f', '\x0c'), ('n', '\n'),
    ('r', '\r'), ('t', '\t'), ('v', '\x0b')]

def letterEscape : List Char → Char × List Char
  | [] => ('\\', [])
  | c :: rest => (letterEscapes.lookup c).elim ('\\', c :: rest) fun meant => (meant, rest)

def escapeAt (text : List Char) : Char × List Char :=
  let digits := (text.take 3).takeWhile Text.isOctal
  (Text.natural? 8 digits).elim (letterEscape text) fun n =>
    (Char.ofNat (n % 256), text.drop digits.length)

def withoutZero : List Char → List Char
  | '0' :: next :: rest => if Text.isOctal next then next :: rest else '0' :: next :: rest
  | text => text

theorem letterEscape_rest_length (text : List Char) :
    (letterEscape text).2.length ≤ text.length := by
  cases text with
  | nil => simp [letterEscape]
  | cons c rest => cases found : letterEscapes.lookup c <;> simp [letterEscape, found]

theorem escapeAt_rest_length (text : List Char) : (escapeAt text).2.length ≤ text.length := by
  have letter := letterEscape_rest_length text
  cases found : Text.natural? 8 ((text.take 3).takeWhile Text.isOctal) <;>
    simp [escapeAt, found, letter]

theorem withoutZero_length (text : List Char) : (withoutZero text).length ≤ text.length := by
  unfold withoutZero
  repeat' split
  all_goals simp

def unescaped (text : List Char) : List Char × Bool :=
  match text with
  | [] => ([], false)
  | '\\' :: 'c' :: _ => ([], true)
  | '\\' :: rest =>
      let others := unescaped (escapeAt (withoutZero rest)).2
      ((escapeAt (withoutZero rest)).1 :: others.1, others.2)
  | c :: rest =>
      let others := unescaped rest
      (c :: others.1, others.2)
termination_by text.length
decreasing_by
  · have := escapeAt_rest_length (withoutZero rest)
    have := withoutZero_length rest
    simp only [List.length_cons]
    omega
  · simp

end ShellWalk.Script
