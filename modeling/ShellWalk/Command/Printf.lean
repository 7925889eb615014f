import ShellWalk.Command.Handler
import ShellWalk.Text.Letter

set_option autoImplicit false

namespace ShellWalk.Printf

def maxSize : Nat := Nat.pow 2 20

inductive Failure where
  | outOfRange (digits : List Char)
  | invalidNumber (text : String)
deriving DecidableEq, Repr

def Failure.message : Failure → String
  | .outOfRange digits => "printf: " ++ String.ofList digits ++ ": Numerical result out of range\n"
  | .invalidNumber text => "printf: '" ++ text ++ "': invalid number\n"

structure Spec where
  leftAlign : Bool
  zeroPad : Bool
  width : Nat
  precision : Option Nat
  oversized : Option (List Char)
  conversion : Option Char
deriving DecidableEq, Repr

inductive Piece where
  | literal (text : List Char)
  | field (spec : Spec)
deriving DecidableEq, Repr

def isFlag (c : Char) : Bool := c = '-' || c = '0' || c = '+' || c = ' ' || c = '#'

def sizeValue (digits : List Char) : Nat := (Text.digitsFrom? 10 0 digits).getD 0

def sizeOf (digits : List Char) : Nat :=
  if sizeValue digits ≤ maxSize then sizeValue digits else 0

def oversized? (digits : List Char) : Option (List Char) :=
  if sizeValue digits ≤ maxSize then none else some digits

def readPrecision : List Char → Option (List Char) × List Char
  | '.' :: rest => (some (rest.takeWhile Text.isDigit), rest.dropWhile Text.isDigit)
  | text => (none, text)

def readConversion : List Char → Option Char × List Char
  | [] => (none, [])
  | c :: rest => (some c, rest)

def readSpec (text : List Char) : Spec × List Char :=
  let flags := text.takeWhile isFlag
  let sized := text.dropWhile isFlag
  let width := sized.takeWhile Text.isDigit
  let (precision, ending) := readPrecision (sized.dropWhile Text.isDigit)
  let (conversion, rest) := readConversion ending
  ({ leftAlign := flags.contains '-'
     zeroPad := flags.contains '0'
     width := sizeOf width
     precision := precision.map sizeOf
     oversized := (oversized? width).or (precision.bind oversized?)
     conversion := conversion }, rest)

def readEscape : List Char → List Char × List Char
  | [] => (['\\'], [])
  | c :: rest =>
      match Text.letterEscape? c with
      | some control => ([control], rest)
      | none => if c = '\x22' then ([c], rest) else (['\\', c], rest)

theorem readPrecision_rest_length (text : List Char) :
    (readPrecision text).2.length ≤ text.length := by
  unfold readPrecision
  split
  · have := (List.dropWhile_sublist (l := ‹_›) Text.isDigit).length_le
    simp only [List.length_cons]
    omega
  · simp

theorem readConversion_rest_length (text : List Char) :
    (readConversion text).2.length ≤ text.length := by
  cases text <;> simp [readConversion]

theorem readSpec_rest_length (text : List Char) : (readSpec text).2.length ≤ text.length := by
  have flags := (List.dropWhile_sublist (l := text) isFlag).length_le
  have width :=
    (List.dropWhile_sublist (l := text.dropWhile isFlag) Text.isDigit).length_le
  have precision := readPrecision_rest_length ((text.dropWhile isFlag).dropWhile Text.isDigit)
  have conversion := readConversion_rest_length
    (readPrecision ((text.dropWhile isFlag).dropWhile Text.isDigit)).2
  simp only [readSpec]
  omega

theorem readEscape_rest_length (text : List Char) : (readEscape text).2.length ≤ text.length := by
  cases text with
  | nil => simp [readEscape]
  | cons c rest =>
      rw [readEscape]
      repeat' split
      all_goals simp

def pieces : List Char → List Piece
  | [] => []
  | c :: rest =>
      if c = '\\' then .literal (readEscape rest).1 :: pieces (readEscape rest).2
      else if c = '%' then
        if rest.head? = some '%' then .literal ['%'] :: pieces rest.tail
        else .field (readSpec rest).1 :: pieces (readSpec rest).2
      else .literal [c] :: pieces rest
termination_by text => text.length
decreasing_by
  · have := readEscape_rest_length rest
    simp only [List.length_cons]
    omega
  · simp only [List.length_tail, List.length_cons]
    omega
  · have := readSpec_rest_length rest
    simp only [List.length_cons]
    omega
  · simp

def isNumeric (conversion : Char) : Bool :=
  conversion = 'd' || conversion = 'i' || conversion = 'x' || conversion = 'X' || conversion = 'o'

def takesArgument (conversion : Char) : Bool :=
  conversion = 's' || conversion = 'c' || isNumeric conversion

def Spec.consumes (spec : Spec) : Bool := spec.conversion.any takesArgument

def Piece.consumes : Piece → Bool
  | .literal _ => false
  | .field spec => spec.consumes

def integerArgument (argument : String) : Except Failure Int :=
  match argument.toList with
  | [] => .ok 0
  | '\x27' :: rest => .ok (rest.head?.elim 0 fun c => (c.toNat : Int))
  | '\x22' :: rest => .ok (rest.head?.elim 0 fun c => (c.toNat : Int))
  | '0' :: 'x' :: digits => (Text.word? 16 digits).elim (.error (.invalidNumber argument)) .ok
  | '0' :: 'X' :: digits => (Text.word? 16 digits).elim (.error (.invalidNumber argument)) .ok
  | text => (Text.word? 10 text).elim (.error (.invalidNumber argument)) .ok

def upperHex (n : Nat) : List Char := (Nat.toDigits 16 n).map Char.toUpper

def numericText (conversion : Char) (n : Int) : List Char :=
  if conversion = 'x' then Nat.toDigits 16 (Text.bits n)
  else if conversion = 'X' then upperHex (Text.bits n)
  else if conversion = 'o' then Nat.toDigits 8 (Text.bits n)
  else Text.signed n

def pad (spec : Spec) (numeric : Bool) (body : List Char) : List Char :=
  let fill := spec.width - body.length
  if spec.leftAlign then body ++ List.replicate fill ' '
  else if spec.zeroPad && numeric then
    match body with
    | '-' :: digits => '-' :: (List.replicate fill '0' ++ digits)
    | digits => List.replicate fill '0' ++ digits
  else List.replicate fill ' ' ++ body

def Spec.render (spec : Spec) (argument : String) : Except Failure (List Char) :=
  match spec.conversion, spec.oversized with
  | none, _ => .ok ['%']
  | some _, some digits => .error (.outOfRange digits)
  | some conversion, none =>
      if conversion = 's' then
        .ok (pad spec false (spec.precision.elim argument.toList fun size =>
          argument.toList.take size))
      else if conversion = 'c' then .ok (pad spec false (argument.toList.take 1))
      else if isNumeric conversion then
        (integerArgument argument).map fun n => pad spec true (numericText conversion n)
      else .ok ['%', conversion]

structure Printed where
  output : List Char
  diagnostics : List Char
deriving DecidableEq, Repr

namespace Printed

def none : Printed := ⟨[], []⟩

def append (first second : Printed) : Printed :=
  ⟨first.output ++ second.output, first.diagnostics ++ second.diagnostics⟩

def ofField : Except Failure (List Char) → Printed
  | .ok text => ⟨text, []⟩
  | .error failure => ⟨[], failure.message.toList⟩

def exitCode (printed : Printed) : Int := if printed.diagnostics = [] then 0 else 1

end Printed

def pass : List Piece → List String → Printed × List String
  | [], arguments => (.none, arguments)
  | .literal text :: rest, arguments =>
      let later := pass rest arguments
      (.append ⟨text, []⟩ later.1, later.2)
  | .field spec :: rest, arguments =>
      let printed := Printed.ofField (spec.render (arguments.headD ""))
      let later := pass rest (if spec.consumes then arguments.tail else arguments)
      (.append printed later.1, later.2)

def passes (format : List Piece) (arguments : List String) : Printed :=
  if (pass format arguments).2 ≠ [] ∧ (pass format arguments).2.length < arguments.length then
    (pass format arguments).1.append (passes format (pass format arguments).2)
  else
    (pass format arguments).1
termination_by arguments.length
decreasing_by exact And.right ‹_›

def usage : Completion := ⟨"", "printf: usage: printf format [arguments]\n", 2⟩

def complete (printed : Printed) : Completion :=
  ⟨String.ofList printed.output, String.ofList printed.diagnostics, printed.exitCode⟩

def handler : Handler := fun _ _ arguments context =>
  match arguments with
  | [] => .ok (usage.apply context)
  | format :: rest =>
      let printed := passes (pieces format.toList) rest
      .ok ((complete printed).apply (context.write (String.ofList printed.output)))

end ShellWalk.Printf
