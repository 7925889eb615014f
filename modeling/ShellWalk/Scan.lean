import ShellWalk.Text.Numeral

set_option autoImplicit false

namespace ShellWalk

abbrev Scan := StateT (List Char) Option

namespace Scan

variable {α : Type}

def peek? : Scan (Option Char) := fun text => some (text.head?, text)

def satisfying (p : Char → Bool) : Scan Char
  | c :: rest => if p c then some (c, rest) else none
  | [] => none

def char (c : Char) : Scan Unit := do
  let _ ← satisfying (· = c)

def run (p : Char → Bool) : Scan (List Char) := fun text =>
  some (text.takeWhile p, text.dropWhile p)

def run1 (p : Char → Bool) : Scan (List Char) := do
  let found ← run p
  if found.isEmpty then failure else return found

def literal (word : List Char) : Scan Unit := fun text =>
  if word.isPrefixOf text then some ((), text.drop word.length) else none

def ended : Scan Unit
  | [] => some ((), [])
  | _ => none

def many (scan : Scan α) (text : List Char) : Option (List α × List Char) :=
  match scan text with
  | some (first, rest) =>
      if rest.length < text.length then
        match many scan rest with
        | some (others, final) => some (first :: others, final)
        | none => none
      else some ([], text)
  | none => some ([], text)
termination_by text.length

def digits (count low high : Nat) : Scan Nat := fun text =>
  let found := text.take count
  if found.length = count ∧ found.all Text.isDigit then
    match Text.natural? 10 found with
    | some n => if low ≤ n ∧ n ≤ high then some (n, text.drop count) else none
    | none => none
  else none

end Scan

end ShellWalk
