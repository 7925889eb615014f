import ShellWalk.Script.Basic
import ShellWalk.Table

set_option autoImplicit false

namespace ShellWalk.Script

inductive RedirectOperator where
  | path (access : Access)
  | duplicate
  | document (stripsTabs : Bool)
deriving DecidableEq, Repr

inductive Token where
  | ended
  | newline
  | semicolon
  | ampersand
  | both
  | either
  | pipe
  | opening
  | closing
  | endOfCase
  | redirect (descriptor : Nat) (operator : RedirectOperator)
  | keyword (text : String)
  | word (parts : Word)

def keywords : List String :=
  ["!", "case", "do", "done", "elif", "else", "esac", "fi", "for", "if", "in", "then", "until",
    "while", "\x7b", "\x7d"]

def quotedName (text : String) : String := "\"" ++ text ++ "\""

namespace Token

def name : Token → String
  | .ended => "end of file"
  | .newline => "newline"
  | .semicolon => quotedName ";"
  | .ampersand => quotedName "&"
  | .both => quotedName "&&"
  | .either => quotedName "||"
  | .pipe => quotedName "|"
  | .opening => quotedName "("
  | .closing => quotedName ")"
  | .endOfCase => quotedName ";;"
  | .redirect _ _ => "redirection"
  | .keyword text => quotedName text
  | .word _ => "word"

def isKeyword (text : String) : Token → Bool
  | .keyword found => found = text
  | _ => false

def isNewline : Token → Bool
  | .newline => true
  | _ => false

def isClosing : Token → Bool
  | .closing => true
  | _ => false

def isPipe : Token → Bool
  | .pipe => true
  | _ => false

def endsList : Token → Bool
  | .ended | .closing | .endOfCase => true
  | .keyword text =>
      ["do", "done", "elif", "else", "esac", "fi", "then", "\x7d"].contains text
  | _ => false

end Token

structure Awaited where
  number : Nat
  mark : List Char
  expands : Bool
  stripsTabs : Bool

structure ActiveAlias where
  name : String
  behind : Nat
  endsBlank : Bool

structure Cursor where
  rest : List Char
  line : Nat
  held : Option Token
  awaited : List Awaited
  documents : Array Word
  aliases : Table String
  active : List ActiveAlias
  outer : List String
  within : Option Awaited

def Cursor.start (text : List Char) (documents : Array Word) (aliases : Table String) : Cursor :=
  ⟨text, 1, none, [], documents, aliases, [], [], none⟩

def Cursor.inUse (cursor : Cursor) : List String :=
  cursor.outer ++
    (cursor.active.filter fun entry => entry.behind ≤ cursor.rest.length).map ActiveAlias.name

-- At least as many as there are characters left to read. An alias is not expanded inside its own
-- text, so that its text multiplies what is read at most once.
def Cursor.bound (cursor : Cursor) : Nat :=
  cursor.aliases.entries.foldl (fun product entry => product * (entry.2.length + 1))
    (cursor.rest.length + 4)

structure Malformed where
  line : Nat
  message : String

abbrev Reader := EStateM Malformed Cursor

namespace Reader

variable {α σ : Type}

def fail (message : String) : Reader α := do throw ⟨(← get).line, message⟩

def unexpected (token : Token) (expected : Option String) : Reader α :=
  fail (token.name ++ " unexpected" ++
    expected.elim "" fun name => " (expecting " ++ name ++ ")")

def joined (line : Nat) : List Char → Nat × List Char
  | '\\' :: '\n' :: rest => joined (line + 1) rest
  | text => (line, text)

def peek : Reader (Option Char) := modifyGet fun cursor =>
  let (line, rest) := joined cursor.line cursor.rest
  (rest.head?, { cursor with line, rest })

def peekRaw : Reader (Option Char) := do return (← get).rest.head?

def skip : Reader Unit := modify fun cursor =>
  match cursor.rest with
  | [] => cursor
  | c :: rest => { cursor with rest, line := if c = '\n' then cursor.line + 1 else cursor.line }

def skipUncounted : Reader Unit := modify fun cursor => { cursor with rest := cursor.rest.tail }

def accept (c : Char) : Reader Bool := do
  if (← peek) = some c then
    skip
    return true
  else return false

def hold (token : Token) : Reader Unit := modify fun cursor => { cursor with held := some token }

def iterateIn (step : σ → Reader (σ ⊕ α)) : Nat → σ → Reader α
  | 0, _ => fail "end of file unexpected"
  | fuel + 1, state => do
      match ← step state with
      | .inl next => iterateIn step fuel next
      | .inr done => return done

def iterate (step : σ → Reader (σ ⊕ α)) (state : σ) : Reader α := do
  iterateIn step (← get).bound state

def run (p : Char → Bool) : Reader (List Char) :=
  iterate (fun found => do
    match ← peek with
    | some c => if p c then skip; return .inl (c :: found) else return .inr found.reverse
    | none => return .inr found.reverse) []

end Reader

end ShellWalk.Script
