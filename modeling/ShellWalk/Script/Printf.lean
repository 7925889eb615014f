import ShellWalk.Script.Format

set_option autoImplicit false

namespace ShellWalk.Script

structure Reply where
  output : List Char
  complaints : List String
  status : Nat
deriving DecidableEq, Repr

def Reply.refused (message : String) : Reply := ⟨[], [message], 2⟩

namespace Printf

inductive Size where
  | fixed (size : Nat)
  | argument
deriving DecidableEq, Repr

structure Directive where
  flags : List Char
  width : Size
  precision : Option Size
  conversion : Option Char
  text : List Char
deriving DecidableEq, Repr

inductive Item where
  | char (c : Char)
  | directive (directive : Directive)
deriving DecidableEq, Repr

def isFlag (c : Char) : Bool := "#-+ 0".toList.contains c

def size : List Char → Size × List Char
  | '*' :: rest => (.argument, rest)
  | text =>
      (.fixed ((Text.natural? 10 (text.takeWhile Text.isDigit)).getD 0),
        text.dropWhile Text.isDigit)

def precision : List Char → Option Size × List Char
  | '.' :: rest => let (found, remaining) := size rest; (some found, remaining)
  | text => (none, text)

def directive (text : List Char) : Directive × List Char :=
  let (width, sized) := size (text.dropWhile isFlag)
  let (precision, rest) := precision sized
  let spelled := '%' :: text.take (text.length - rest.length + 1)
  (⟨text.takeWhile isFlag, width, precision, rest.head?, spelled⟩, rest.tail)

def itemsIn : Nat → List Char → List Item
  | 0, _ => []
  | _ + 1, [] => []
  | fuel + 1, '\\' :: rest =>
      let (c, remaining) := escapeAt rest
      .char c :: itemsIn fuel remaining
  | fuel + 1, '%' :: '%' :: rest => .char '%' :: itemsIn fuel rest
  | fuel + 1, '%' :: rest =>
      let (found, remaining) := directive rest
      .directive found :: itemsIn fuel remaining
  | fuel + 1, c :: rest => .char c :: itemsIn fuel rest

def items (format : List Char) : List Item := itemsIn format.length format

structure Progress where
  output : List Char
  complaints : List String
  status : Nat
  arguments : List String
  stopped : Bool

namespace Progress

def write (progress : Progress) (text : List Char) : Progress :=
  { progress with output := text.reverse ++ progress.output }

def next (progress : Progress) : Option String × Progress :=
  (progress.arguments.head?, { progress with arguments := progress.arguments.tail })

def complain (progress : Progress) (message : Option String) : Progress :=
  match message with
  | some text => { progress with complaints := text :: progress.complaints, status := 1 }
  | none => progress

def abort (progress : Progress) (message : String) : Progress :=
  { progress with complaints := message :: progress.complaints, status := 2, stopped := true }

end Progress

def leftover? (argument : String) (converted : Bool) (rest : List Char) : Option String :=
  if rest = [] then none
  else if converted then some (argument ++ ": not completely converted")
  else some (argument ++ ": expected numeric value")

def outOfRange (argument : String) : String := argument ++ ": Numerical result out of range"

def quotedCode? : List Char → Option Nat
  | '\x27' :: rest => some ((rest.head?.map Char.toNat).getD 0)
  | '\x22' :: rest => some ((rest.head?.map Char.toNat).getD 0)
  | _ => none

def integer (fit? : Int → Option Int) (limit : Int → Int) (argument : Option String) :
    Int × Option String :=
  match argument with
  | none => (0, none)
  | some text =>
      match quotedCode? text.toList with
      | some code => (code, none)
      | none =>
          let found := Arithmetic.numeral Arithmetic.basedDigits text.toList
          match found.value with
          | none => (0, leftover? text false text.toList)
          | some n =>
              match fit? n with
              | some value => (value, leftover? text true found.rest)
              | none => (limit n, (leftover? text true found.rest).or (some (outOfRange text)))

def signed (argument : Option String) : Int × Option String :=
  integer (fun n => if Text.inWord n then some n else none) Arithmetic.clamp argument

def unsigned (argument : Option String) : Nat × Option String :=
  let (n, complaint) := integer
    (fun n => if n.natAbs < Text.wordSize then some (Text.bits n) else none)
    (fun _ => (Text.wordSize : Int) - 1) argument
  (n.toNat, complaint)

def real (argument : Option String) : Real × Option String :=
  let zero : Real := .finite false .zero
  match argument with
  | none => (zero, none)
  | some text =>
      match quotedCode? text.toList with
      | some code => (.finite false ((Double.ofNat? code).getD .zero), none)
      | none =>
          match Real.read? text.toList with
          | none => (zero, leftover? text false text.toList)
          | some found =>
              (found.value, (leftover? text true found.rest).or
                (if found.outOfRange then some (outOfRange text) else none))

def resolve (progress : Progress) : Size → Int × Progress
  | .fixed size => (size, progress)
  | .argument =>
      let (argument, rest) := progress.next
      let (n, complaint) := signed argument
      (n, rest.complain complaint)

def layout (flags : List Char) (width : Int) (precision : Option Int) : Layout where
  left := flags.contains '-' || width < 0
  plus := flags.contains '+'
  blank := flags.contains ' '
  alternate := flags.contains '#'
  zeros := flags.contains '0'
  width := width.natAbs
  precision := (precision.filter (0 ≤ ·)).map Int.toNat

def convert (progress : Progress) (layout : Layout) (conversion : Char) (text : List Char) :
    Progress :=
  let (argument, rest) := progress.next
  let word := (argument.getD "").toList
  if conversion = 's' then rest.write (layout.text word)
  else if conversion = 'b' then
    let (decoded, stopped) := unescaped word
    { rest.write (layout.text decoded) with stopped }
  else if conversion = 'c' then
    rest.write (layout.fill [word.headD (Char.ofNat 0)])
  else if conversion = 'd' || conversion = 'i' then
    let (n, complaint) := signed argument
    (rest.complain complaint).write (layout.signedInteger n)
  else if "ouxX".toList.contains conversion then
    let (n, complaint) := unsigned argument
    (rest.complain complaint).write (layout.unsignedInteger conversion n)
  else if "aAeEfFgG".toList.contains conversion then
    let (value, complaint) := real argument
    (rest.complain complaint).write (value.render layout conversion)
  else progress.abort (String.ofList text ++ ": invalid directive")

def step (progress : Progress) (item : Item) : Progress :=
  if progress.stopped then progress
  else match item with
    | .char c => progress.write [c]
    | .directive directive =>
        let (width, sized) := resolve progress directive.width
        let (precision, ready) := match directive.precision with
          | none => (none, sized)
          | some size => let (n, after) := resolve sized size; (some n, after)
        match directive.conversion with
        | none => ready.abort "missing format character"
        | some conversion =>
            convert ready (layout directive.flags width precision) conversion directive.text

def passes (format : List Item) : Nat → Progress → Progress
  | 0, progress => progress
  | fuel + 1, progress =>
      let after := format.foldl step progress
      if after.stopped || after.arguments.isEmpty ||
          after.arguments.length = progress.arguments.length then after
      else passes format fuel after

def print (format : String) (arguments : List String) : Reply :=
  let final := passes (items format.toList) (arguments.length + 1) ⟨[], [], 0, arguments, false⟩
  ⟨final.output.reverse, final.complaints.reverse, final.status⟩

def run (arguments : List String) : Reply :=
  let usage := Reply.refused "usage: printf format [arg ...]"
  match arguments with
  | [] => usage
  | "--" :: rest =>
      match rest with
      | [] => usage
      | format :: others => print format others
  | format :: others =>
      match format.toList with
      | '-' :: letter :: _ => .refused ("Illegal option -" ++ String.ofList [letter])
      | _ => print format others

end Printf

def echoWords (ending : List Char) : List String → List Char
  | [] => ending
  | word :: rest =>
      let (text, stopped) := unescaped word.toList
      if stopped then text
      else if rest.isEmpty then text ++ ending
      else text ++ ' ' :: echoWords ending rest

def echo : List String → Reply
  | "-n" :: words => ⟨echoWords [] words, [], 0⟩
  | words => ⟨echoWords ['\n'] words, [], 0⟩

end ShellWalk.Script
