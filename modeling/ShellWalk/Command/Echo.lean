import ShellWalk.Command.Handler
import ShellWalk.Text.Letter

set_option autoImplicit false

namespace ShellWalk.Echo

structure Flags where
  newline : Bool
  escapes : Bool
deriving DecidableEq, Repr

def Flags.initial : Flags := ⟨true, false⟩

def Flags.add? (flags : Flags) (word : String) : Option Flags :=
  if word = "-n" then some { flags with newline := false }
  else if word = "-e" then some { flags with escapes := true }
  else if word = "-E" then some { flags with escapes := false }
  else if word = "-ne" ∨ word = "-en" then some ⟨false, true⟩
  else none

def readFlags (flags : Flags) : List String → Flags × List String
  | [] => (flags, [])
  | word :: rest =>
      match flags.add? word with
      | some more => readFlags more rest
      | none => (flags, word :: rest)

inductive Emit where
  | text (text : List Char)
  | stop
deriving DecidableEq, Repr

def runValue (base : Nat) (digits : List Char) : Nat := (Text.digitsFrom? base 0 digits).getD 0

def octalEscape (text : List Char) : Emit × List Char :=
  let digits := (text.take 3).takeWhile Text.isOctal
  (.text [Char.ofNat (runValue 8 digits % 256)], text.drop digits.length)

def hexEscape (text : List Char) : Emit × List Char :=
  let digits := (text.take 2).takeWhile Text.isHex
  if digits = [] then (.text ['\\', 'x'], text)
  else (.text [Char.ofNat (runValue 16 digits)], text.drop digits.length)

def escape : List Char → Emit × List Char
  | [] => (.text ['\\'], [])
  | c :: rest =>
      match Text.letterEscape? c with
      | some control => (.text [control], rest)
      | none =>
          if c = 'e' ∨ c = 'E' then (.text ['\x1b'], rest)
          else if c = 'c' then (.stop, [])
          else if c = '0' then octalEscape rest
          else if c = 'x' then hexEscape rest
          else (.text ['\\', c], rest)

theorem octalEscape_rest_length (text : List Char) :
    (octalEscape text).2.length ≤ text.length := by
  simp [octalEscape]

theorem hexEscape_rest_length (text : List Char) :
    (hexEscape text).2.length ≤ text.length := by
  simp only [hexEscape]
  split <;> simp

theorem escape_rest_length (text : List Char) : (escape text).2.length ≤ text.length := by
  cases text with
  | nil => simp [escape]
  | cons c rest =>
      have octal := octalEscape_rest_length rest
      have hex := hexEscape_rest_length rest
      rw [escape]
      repeat' split
      all_goals simp only [List.length_cons, List.length_nil]
      all_goals omega

def decode : List Char → List Char × Bool
  | [] => ([], false)
  | c :: rest =>
      if c = '\\' then
        match (escape rest).1 with
        | .stop => ([], true)
        | .text piece =>
            let tail := decode (escape rest).2
            (piece ++ tail.1, tail.2)
      else
        let tail := decode rest
        (c :: tail.1, tail.2)
termination_by text => text.length
decreasing_by
  · have := escape_rest_length rest
    simp only [List.length_cons]
    omega
  · simp

structure Printed where
  text : List Char
  newline : Bool
deriving DecidableEq, Repr

def printed (arguments : List String) : Printed :=
  let (flags, words) := readFlags .initial arguments
  let text := (String.intercalate " " words).toList
  if flags.escapes then
    let (text, stopped) := decode text
    ⟨text, flags.newline && !stopped⟩
  else
    ⟨text, flags.newline⟩

def onTerminal (printed : Printed) : String :=
  String.ofList (if printed.newline then printed.text ++ ['\n'] else printed.text)

def inLog (printed : Printed) : String := String.ofList (printed.text ++ ['\n'])

def handler : Handler := fun _ _ arguments context =>
  let result := printed arguments
  .ok ((Completion.success (inLog result)).apply (context.write (onTerminal result)))

end ShellWalk.Echo
