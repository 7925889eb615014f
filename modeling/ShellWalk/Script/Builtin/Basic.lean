import ShellWalk.Script.Condition
import ShellWalk.Script.Machine
import ShellWalk.Script.Printf

set_option autoImplicit false

namespace ShellWalk.Script.Builtin

open Shell

def quotedRest : Bool → List Char → List Char
  | inDouble, [] => [if inDouble then '\x22' else '\x27']
  | false, c :: rest =>
      if c = '\x27' then '\x27' :: '\x22' :: c :: quotedRest true rest else c :: quotedRest false rest
  | true, c :: rest =>
      if c = '\x27' then c :: quotedRest true rest else '\x22' :: '\x27' :: c :: quotedRest false rest

def quoted (text : String) : String := String.ofList ('\x27' :: quotedRest false text.toList)

def say (name text : String) : Shell Unit := do
  if text ≠ "" then
    if !(← write 1 text) then
      complain (name ++ ": I/O error")
      setStatus 1

def reply (name : String) (answer : Reply) : Shell Unit := do
  answer.complaints.forM complain
  setStatus answer.status
  say name (String.ofList answer.output)

def answer (name text : String) : Shell Unit := do
  setStatus 0
  say name text

def maxNumber : Nat := Nat.pow 2 31 - 1

def number (text : String) : Shell Nat :=
  match if isDigits text then Text.natural? 10 text.toList else none with
  | some n => if n ≤ maxNumber then return n else fail ("Illegal number: " ++ text)
  | none => fail ("Illegal number: " ++ text)

def letters (known : List Char) : List String → Shell (List Char × List String)
  | [] => return ([], [])
  | word :: rest =>
      match word.toList with
      | ['-', '-'] => return ([], rest)
      | '-' :: first :: others => do
          match (first :: others).find? fun c => !known.contains c with
          | some c => fail ("Illegal option -" ++ String.ofList [c])
          | none =>
              let (more, words) ← letters known rest
              return (first :: others ++ more, words)
      | _ => return ([], word :: rest)

def badName {α : Type} (name : String) : Shell α := fail (name ++ ": bad variable name")

def declaration (word : String) : Shell (String × Option String) := do
  let name := String.ofList (word.toList.takeWhile (· ≠ '='))
  if !isName name.toList then badName name
  match word.toList.dropWhile (· ≠ '=') with
  | [] => return (name, none)
  | _ :: value => return (name, some (String.ofList value))

end ShellWalk.Script.Builtin
