import ShellWalk.Text.Numeral

set_option autoImplicit false

namespace ShellWalk.Script

def isNameStart (c : Char) : Bool := c.isAlpha || c = '_'

def isNameChar (c : Char) : Bool := c.isAlphanum || c = '_'

def isName : List Char → Bool
  | [] => false
  | first :: rest => isNameStart first && rest.all isNameChar

inductive Modifier where
  | value
  | length
  | orElse (orEmpty : Bool)
  | orAssign (orEmpty : Bool)
  | orFail (orEmpty : Bool)
  | andThen (orEmpty : Bool)
  | trimStart (longest : Bool)
  | trimEnd (longest : Bool)
  | malformed
deriving DecidableEq, Repr

inductive Access where
  | read
  | write
  | overwrite
  | append
  | readWrite
deriving DecidableEq, Repr

mutual

inductive Part where
  | char (c : Char) (quoted : Bool)
  | quoteMark
  | parameter (name : String) (modifier : Modifier) (operand : List Part) (quoted : Bool)
  | command (body : Command) (quoted : Bool)
  | arithmetic (expression : List Part) (quoted : Bool)

inductive Redirect where
  | path (descriptor : Nat) (access : Access) (path : List Part)
  | duplicate (descriptor : Nat) (source : List Part)
  | document (descriptor number : Nat)

inductive Command where
  | nothing
  | simple (line : Nat) (assignments words : List (List Part)) (redirects : List Redirect)
  | negation (body : Command)
  | both (first second : Command)
  | either (first second : Command)
  | sequence (first second : Command)
  | pipeline (stages : List Command)
  | background (body : Command)
  | subshell (line : Nat) (body : Command) (redirects : List Redirect)
  | redirected (line : Nat) (body : Command) (redirects : List Redirect)
  | conditional (condition consequence alternative : Command)
  | loop (untilTrue : Bool) (condition body : Command)
  | iteration (line : Nat) (name : String) (words : List (List Part)) (body : Command)
  | selection (line : Nat) (subject : List Part) (cases : List (List (List Part) × Command))
  | definition (name : String) (body : Command)

end

abbrev Word := List Part

def plainText? : Word → Option (List Char)
  | [] => some []
  | .char c false :: rest => (plainText? rest).map (c :: ·)
  | _ => none

def Part.isQuoting : Part → Bool
  | .char _ quoted => quoted
  | .quoteMark => true
  | _ => false

def assignment? : Word → Option (String × Word)
  | .char first false :: rest =>
      if isNameStart first then go [first] rest else none
  | _ => none
where
  go (name : List Char) : Word → Option (String × Word)
    | .char c false :: rest =>
        if isNameChar c then go (c :: name) rest
        else if c = '=' then some (String.ofList name.reverse, rest)
        else none
    | _ => none

end ShellWalk.Script
