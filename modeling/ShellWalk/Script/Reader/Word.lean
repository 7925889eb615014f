import ShellWalk.Script.Token

set_option autoImplicit false

namespace ShellWalk.Script

inductive ListKind where
  | line
  | block
  | inner
deriving DecidableEq, Repr

inductive Goal : Type → Type where
  | list (kind : ListKind) : Goal Command
  | command : Goal Command
  | substitution : Goal Command
  | backquoted (text : List Char) : Goal Command
  | quoted (literal braced : Bool) : Goal Word
  | operand (quoted : Bool) : Goal Word
  | expression : Goal Word

abbrev Parse := {α : Type} → Goal α → Reader α

namespace Reader

variable (parse : Parse)

def isSpecial (c : Char) : Bool := c.isDigit || "!#$*-?@".toList.contains c

def missingBrace : String := "Missing '\x7d'"

def unterminated {α : Type} : Reader α := do
  fail (if (← get).within.isSome then missingBrace else "Unterminated quoted string")

def afterMark? (mark text : List Char) : Option (List Char) :=
  if mark.isPrefixOf text then
    match text.drop mark.length with
    | [] => some []
    | '\n' :: rest => some rest
    | _ => none
  else none

def stripTabs (awaited : Awaited) : Reader Unit := do
  if awaited.stripsTabs then
    modify fun cursor => { cursor with rest := cursor.rest.dropWhile (· = '\t') }

def lineEnd (missing : String) : Reader Unit := do
  skip
  match (← get).within with
  | none => return
  | some awaited =>
      let _ ← peek
      stripTabs awaited
      let cursor ← get
      match afterMark? awaited.mark cursor.rest with
      | some rest =>
          set { cursor with rest, line := cursor.line + 1 }
          fail missing
      | none => return

def singleQuoted : Reader Word := do
  skip
  let cursor ← get
  let text := cursor.rest.takeWhile (· ≠ '\x27')
  let line := cursor.line + text.count '\n'
  match cursor.rest.dropWhile (· ≠ '\x27') with
  | [] =>
      set { cursor with rest := [], line }
      unterminated
  | _ :: rest =>
      set { cursor with rest, line }
      return .quoteMark :: text.map (.char · true) ++ [.quoteMark]

def doubleQuoted (literal braced : Bool) : Reader Word := do
  skip
  return .quoteMark :: (← parse (.quoted literal braced)) ++ [.quoteMark]

def escape : Reader Word := do
  skip
  match ← peekRaw with
  | none => return [.char '\\' true]
  | some c =>
      skip
      return [.char c true]

def quotedEscape (escapable : List Char) : Reader Word := do
  skip
  match ← peekRaw with
  | none => return [.char '\\' true]
  | some c =>
      skip
      return if escapable.contains c then [.char c true] else [.char '\\' true, .char c true]

def character (quoted : Bool) (c : Char) : Reader Word := do
  skip
  return [.char c quoted]

def backquotedText (quoted : Bool) : Reader (List Char) :=
  iterate (fun found => do
    match ← peek with
    | none => fail "EOF in backquote substitution"
    | some '\x60' =>
        skip
        return .inr found.reverse
    | some '\\' =>
        skip
        match ← peekRaw with
        | none => return .inl ('\\' :: found)
        | some c =>
            skip
            return .inl (if c = '\\' || c = '\x60' || c = '$' || (quoted && c = '\x22')
              then c :: found else c :: '\\' :: found)
    | some c =>
        skip
        return .inl (c :: found)) []

def backquotes (quoted : Bool) : Reader Word := do
  skip
  return [.command (← parse (.backquoted (← backquotedText quoted))) quoted]

def bracedName : Reader (Option String) := do
  match ← peek with
  | none => return none
  | some c =>
      if isNameStart c then return some (String.ofList (← run isNameChar))
      else if c.isDigit then return some (String.ofList (← run Char.isDigit))
      else if c = '\x7d' then return none
      else
        skipUncounted
        return if isSpecial c then some (String.ofList [c]) else none

def withOperand (quoted : Bool) (name : String) (modifier : Modifier) : Reader Word := do
  return [.parameter name modifier (← parse (.operand quoted)) quoted]

def withPattern (quoted : Bool) (name : String) (modifier : Modifier) : Reader Word := do
  return [.parameter name modifier (← parse (.operand false)) quoted]

def conditionalModifier (orEmpty : Bool) (c : Char) : Modifier :=
  if c = '-' then .orElse orEmpty
  else if c = '=' then .orAssign orEmpty
  else if c = '?' then .orFail orEmpty
  else if c = '+' then .andThen orEmpty
  else .malformed

def bracedModifier (quoted : Bool) (name : String) : Reader Word := do
  let first ← peek
  skipUncounted
  match first with
  | none => withOperand parse quoted name .malformed
  | some '\x7d' => return [.parameter name .value [] quoted]
  | some '%' => withPattern parse quoted name (.trimEnd (← accept '%'))
  | some '#' => withPattern parse quoted name (.trimStart (← accept '#'))
  | some ':' =>
      let second ← peek
      skipUncounted
      match second with
      | none => withOperand parse quoted name .malformed
      | some '\x7d' => return [.parameter name .value [] quoted]
      | some c => withOperand parse quoted name (conditionalModifier true c)
  | some c => withOperand parse quoted name (conditionalModifier false c)

def bracedLength (quoted : Bool) : Reader Word := do
  let next ← peek
  let after := ((← get).rest.drop 1).head?
  if next.any isNameChar then
    let name := (← bracedName).getD ""
    if ← accept '\x7d' then return [.parameter name .length [] quoted]
    else withOperand parse quoted name .malformed
  else if next ≠ some '\x7d' ∧ after = some '\x7d' then
    match ← bracedName with
    | some name =>
        skip
        return [.parameter name .length [] quoted]
    | none => withOperand parse quoted "" .malformed
  else bracedModifier parse quoted "#"

def braced (quoted : Bool) : Reader Word := do
  if ← accept '#' then bracedLength parse quoted
  else
    match ← bracedName with
    | some name => bracedModifier parse quoted name
    | none => withOperand parse quoted "" .malformed

def dollar (quoted : Bool) : Reader Word := do
  skip
  match ← peek with
  | none => return [.char '$' quoted]
  | some c =>
      if c = '(' then
        skip
        if ← accept '(' then return [.arithmetic (← parse .expression) quoted]
        else return [.command (← parse .substitution) quoted]
      else if c = '\x7b' then
        skip
        braced parse quoted
      else if isNameStart c then
        return [.parameter (String.ofList (← run isNameChar)) .value [] quoted]
      else if isSpecial c then
        skip
        return [.parameter (String.ofList [c]) .value [] quoted]
      else return [.char '$' quoted]

def parts (step : Reader (Option Word)) : Reader Word :=
  iterate (fun found => do
    match ← step with
    | some more => return .inl (more :: found)
    | none => return .inr found.reverse.flatten) []

def expandingPart (escapable : List Char) (literal : Bool) (c : Char) : Reader Word := do
  if c = '\\' then quotedEscape escapable
  else if c = '$' && !literal then dollar parse true
  else if c = '\x60' && !literal then backquotes parse true
  else character true c

def quotedEscapable : List Char := ['\\', '\x60', '$', '\x22']

def bracedEscapable : List Char := '\x7d' :: quotedEscapable

def quotedPart (literal braced : Bool) : Reader (Option Word) := do
  match ← peek with
  | none => unterminated
  | some '\x22' =>
      skip
      return none
  | some c =>
      let escapable := if braced then bracedEscapable else quotedEscapable
      return some (← expandingPart parse escapable literal c)

def quotedOperand : Reader Word :=
  iterate (fun (state : List Word × Bool) => do
    match ← peek with
    | none => unterminated
    | some '\x22' =>
        skip
        return .inl ([.quoteMark] :: state.1, !state.2)
    | some '\n' =>
        lineEnd missingBrace
        return .inl ([.char '\n' true] :: state.1, state.2)
    | some c =>
        if c = '\x7d' && !state.2 then
          skip
          return .inr state.1.reverse.flatten
        else
          let more ← expandingPart parse bracedEscapable false c
          return .inl (more :: state.1, state.2)) ([], false)

def missingParentheses : String := "Missing '))'"

def expressionText : Reader Word :=
  iterate (fun (state : List Word × Nat) => do
    match ← peek with
    | none => fail missingParentheses
    | some '\n' =>
        lineEnd missingParentheses
        return .inl ([.char '\n' true] :: state.1, state.2)
    | some '(' =>
        skip
        return .inl ([.char '(' true] :: state.1, state.2 + 1)
    | some ')' =>
        skip
        if state.2 = 0 then
          if ← accept ')' then return .inr state.1.reverse.flatten
          else return .inl ([.char ')' true] :: state.1, 0)
        else return .inl ([.char ')' true] :: state.1, state.2 - 1)
    | some c =>
        let more ← expandingPart parse quotedEscapable false c
        return .inl (more :: state.1, state.2)) ([], 0)

def endsWord (c : Char) : Bool := " \t\n;&|<>()".toList.contains c

def plainPart (literal braced : Bool) (c : Char) : Reader Word := do
  if c = '\\' then escape
  else if c = '\x27' then singleQuoted
  else if c = '\x22' then doubleQuoted parse literal braced
  else if c = '$' && !literal then dollar parse false
  else if c = '\x60' && !literal then backquotes parse false
  else character false c

def wordPart (literal : Bool) : Reader (Option Word) := do
  match ← peek with
  | none => return none
  | some c => if endsWord c then return none else return some (← plainPart parse literal false c)

def operandPart : Reader (Option Word) := do
  match ← peek with
  | none => fail missingBrace
  | some '\x7d' =>
      skip
      return none
  | some '\n' =>
      lineEnd missingBrace
      return some [.char '\n' false]
  | some c => return some (← plainPart parse false true c)

def documentPart (expands : Bool) : Reader (Option Word) := do
  let next ← if expands then peek else peekRaw
  match next with
  | none => return none
  | some c =>
      if c = '\n' then return none
      else if expands then return some (← expandingPart parse ['\\', '\x60', '$'] false c)
      else return some (← character true c)

def keptBreak (stripped : Bool) : Reader Word := do
  match (← get).rest with
  | '\\' :: '\n' :: _ =>
      if stripped then
        skip
        skip
        return [.char '\\' true, .char '\n' true]
      else return []
  | _ => return []

def document (awaited : Awaited) : Reader Word := do
  modify fun cursor => { cursor with within := some awaited }
  let text ← iterate (fun found => do
    if awaited.expands then
      let _ ← peek
    let before := (← get).rest.length
    stripTabs awaited
    let cursor ← get
    match afterMark? awaited.mark cursor.rest with
    | some rest =>
        set { cursor with rest, line := cursor.line + 1 }
        return .inr found.reverse.flatten
    | none =>
        let front ← keptBreak (awaited.expands && cursor.rest.length < before)
        let line ← parts (documentPart parse awaited.expands)
        if (← peekRaw) = none then return .inr ((front ++ line) :: found).reverse.flatten
        skip
        return .inl ((front ++ line ++ [.char '\n' true]) :: found)) []
  modify fun cursor => { cursor with within := none }
  return text

def documentsOf : List Awaited → Reader Unit
  | [] => return
  | awaited :: rest => do
      let text ← document parse awaited
      modify fun cursor =>
        { cursor with documents := cursor.documents.setIfInBounds awaited.number text }
      documentsOf rest

def readDocuments : Reader Unit := do
  let awaited := (← get).awaited
  modify fun cursor => { cursor with awaited := [] }
  documentsOf parse awaited

end Reader

end ShellWalk.Script
