import ShellWalk.Script.Reader.Word

set_option autoImplicit false

namespace ShellWalk.Script.Reader

variable (parse : Parse)

structure Check where
  newlines : Bool := false
  keywords : Bool := false
  aliases : Bool := false
  literal : Bool := false

def Check.command : Check := { keywords := true, aliases := true }

def Check.nextCommand : Check := { newlines := true, keywords := true, aliases := true }

def outputOperator : Reader RedirectOperator := do
  if ← accept '>' then return .path .append
  else if ← accept '|' then return .path .overwrite
  else if ← accept '&' then return .duplicate
  else return .path .write

def inputOperator : Reader RedirectOperator := do
  if ← accept '<' then return .document (← accept '-')
  else if ← accept '&' then return .duplicate
  else if ← accept '>' then return .path .readWrite
  else return .path .read

def redirectOperator (descriptor : Option Nat) (c : Char) : Reader Token := do
  skip
  if c = '>' then return .redirect (descriptor.getD 1) (← outputOperator)
  else return .redirect (descriptor.getD 0) (← inputOperator)

def descriptor? : Word → Option (Option Nat)
  | [] => some none
  | [.char c false] => if c.isDigit then some (some (c.toNat - '0'.toNat)) else none
  | _ => none

def wordToken (literal : Bool) : Reader Token := do
  let word ← parts (wordPart parse literal)
  match ← peek, descriptor? word with
  | some c, some descriptor =>
      if c = '<' || c = '>' then redirectOperator descriptor c else return .word word
  | _, _ => return .word word

def skipBlanks : Reader Unit := do
  let _ ← run fun c => c = ' ' || c = '\t'
  if (← peek) = some '#' then
    modify fun cursor => { cursor with rest := cursor.rest.dropWhile (· ≠ '\n') }

def freshToken (literal : Bool) : Reader Token := do
  skipBlanks
  match ← peek with
  | none => return .ended
  | some '\n' => skip; return .newline
  | some '&' => skip; return if ← accept '&' then .both else .ampersand
  | some '|' => skip; return if ← accept '|' then .either else .pipe
  | some ';' => skip; return if ← accept ';' then .endOfCase else .semicolon
  | some '(' => skip; return .opening
  | some ')' => skip; return .closing
  | some _ => wordToken parse literal

def heldToken (literal : Bool) : Reader Token := do
  match (← get).held with
  | some token =>
      modify fun cursor => { cursor with held := none }
      return token
  | none => freshToken parse literal

def nonNewline (token : Token) : Reader Token :=
  iterate (fun token => do
    if token.isNewline then
      readDocuments parse
      return .inl (← heldToken parse false)
    else return .inr token) token

def alias? (name : String) : Reader (Option (List Char)) := do
  let cursor ← get
  if cursor.inUse.contains name then return none
  else return (cursor.aliases.get? name).map String.toList

def behindBlank (before : Nat) : Reader Bool := do
  let cursor ← get
  return cursor.active.any fun entry =>
    entry.endsBlank && entry.behind < before && cursor.rest.length < entry.behind

def expandAlias (name : String) (text : List Char) : Reader Unit :=
  modify fun cursor =>
    let entry : ActiveAlias :=
      ⟨name, cursor.rest.length, text.getLast?.any fun c => c = ' ' || c = '\t'⟩
    { cursor with rest := text ++ cursor.rest, active := entry :: cursor.active }

-- The next token. The first word of an alias is itself looked up.
def readToken (check : Check) : Reader Token :=
  iterate (fun aliases => do
    let before := (← get).rest.length
    let first ← heldToken parse check.literal
    let token ← if check.newlines then nonNewline parse first else pure first
    match token with
    | .word word =>
        match plainText? word with
        | none => return .inr token
        | some text =>
            let name := String.ofList text
            if check.keywords && keywords.contains name then return .inr (.keyword name)
            else if aliases || (← behindBlank before) then
              match ← alias? name with
              | some text =>
                  expandAlias name text
                  return .inl true
              | none => return .inr token
            else return .inr token
    | _ => return .inr token) check.aliases

def expectKeyword (check : Check) (text : String) : Reader Unit := do
  let token ← readToken parse check
  if !token.isKeyword text then unexpected token (some (quotedName text))

end ShellWalk.Script.Reader
