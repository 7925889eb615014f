import ShellWalk.Script.Machine

set_option autoImplicit false

namespace ShellWalk.Script

inductive Task : Type → Type where
  -- In a tested place a failing command does not end the shell.
  | command (body : Command) (tested : Bool) : Task Unit
  | rounds (untilTrue : Bool) (condition body : Command) (tested : Bool) (last : Nat) : Task Unit
  | script (cursor : Cursor) (tested : Bool) : Task Bool
  | operand (word : Word) (splits : Bool) : Task (List Piece)
  | waiting : Task Unit

abbrev Eval := {α : Type} → Task α → Shell α

namespace Expansion

open Shell

def tildeName (inAssignment : Bool) : Word → Option (List Char × Word)
  | [] => some ([], [])
  | .char c false :: rest =>
      if c = '/' || (inAssignment && c = ':') then some ([], .char c false :: rest)
      else (tildeName inAssignment rest).map fun (name, remaining) => (c :: name, remaining)
  | _ => none

def homeOf (home : Option String) (name : List Char) : Option String :=
  if name = [] then home else if name = "root".toList then some "/root" else none

def expandTilde (home : Option String) (inAssignment : Bool) (word : Word) : Word :=
  match word with
  | .char '~' false :: rest =>
      match tildeName inAssignment rest with
      | some (name, remaining) =>
          match homeOf home name with
          | some path => path.toList.map (.char · true) ++ remaining
          | none => word
      | none => word
  | _ => word

def expandTildes (home : Option String) : Bool → Word → Word
  | _, [] => []
  | atStart, part :: rest =>
      let others := expandTildes home (match part with
        | .char ':' false => true
        | _ => false) rest
      if atStart then expandTilde home true (part :: others) else part :: others

def quotedPieces (text : String) : List Piece := text.toList.map (.char · true false)

def textPieces (text : String) (quoted : Bool) : List Piece :=
  if quoted then quotedPieces text
  else .edge false :: text.toList.map (.char · false true)

def interleave (separator : List Piece) : List (List Piece) → List Piece
  | [] => []
  | [only] => only
  | first :: rest => first ++ separator ++ interleave separator rest

def joinedParameters : Shell String := do
  let separator := (← separators).head?
  return String.intercalate (String.ofList separator.toList) (← process).arguments

def allParameters (name : String) (quoted splits : Bool) : Shell (List Piece) := do
  let arguments := (← process).arguments
  if arguments.isEmpty then return []
  else if splits && quoted && name = "@" then
    return .edge true :: interleave [.cut true] (arguments.map quotedPieces)
  else if splits && !quoted then
    return .edge false :: interleave [.cut false]
      (arguments.map fun text => text.toList.map (.char · false true))
  else return textPieces (← joinedParameters) quoted

def isList (name : String) : Bool := name = "@" || name = "*"

def trimmable (name : String) (quoted splits : Bool) (value : String) : Shell (List Char) := do
  if splits && (name = "@" || (name = "*" && !quoted)) then
    return (String.intercalate (String.ofList [Char.ofNat 0]) (← process).arguments).toList
  else return value.toList

def trimmedPieces (text : List Char) (quoted : Bool) : List Piece :=
  if text.contains (Char.ofNat 0) then
    .edge quoted :: text.map fun c =>
      if c = Char.ofNat 0 then .cut quoted else .char c quoted (!quoted)
  else textPieces (String.ofList text) quoted

def valueOf (name : String) : Shell (Option String) := do
  if isList name then return some (← joinedParameters) else parameter name

def valuePieces (name : String) (quoted splits : Bool) (value : String) : Shell (List Piece) :=
  if isList name then allParameters name quoted splits else return textPieces value quoted

def notSet (name : String) : Shell Unit := do
  if ← isOn 'u' then fail (name ++ ": parameter not set")

variable (eval : Eval)

def operandText (operand : Word) : Shell String := do
  return piecesText (← eval (.operand operand false))

def assignOperand (name : String) (operand : Word) : Shell String := do
  let text ← operandText eval operand
  if !isName name.toList then fail (name ++ ": bad variable name")
  setVariable name text
  return text

def missing (orEmpty : Bool) : String :=
  if orEmpty then "parameter not set or null" else "parameter not set"

def parameterPieces (name : String) (modifier : Modifier) (operand : Word) (quoted splits : Bool) :
    Shell (List Piece) := do
  let value ← valueOf name
  let present (orEmpty : Bool) : Option String :=
    value.filter fun text => !orEmpty || text ≠ ""
  match modifier with
  | .malformed => fail "Bad substitution"
  | .value =>
      if value.isNone then notSet name
      valuePieces name quoted splits (value.getD "")
  | .length =>
      if value.isNone then notSet name
      return textPieces (toString (value.getD "").length) quoted
  | .orElse orEmpty =>
      match present orEmpty with
      | some text => valuePieces name quoted splits text
      | none => eval (.operand operand splits)
  | .andThen orEmpty =>
      match present orEmpty with
      | some _ => eval (.operand operand splits)
      | none => return []
  | .orAssign orEmpty =>
      match present orEmpty with
      | some text => valuePieces name quoted splits text
      | none => return textPieces (← assignOperand eval name operand) quoted
  | .orFail orEmpty =>
      match present orEmpty with
      | some text => valuePieces name quoted splits text
      | none =>
          let text ← operandText eval operand
          fail (name ++ ": " ++ if operand.isEmpty then missing orEmpty else text)
  | .trimStart longest => trimmed fun pattern => pattern.trimStart longest
  | .trimEnd longest => trimmed fun pattern => pattern.trimEnd longest
where
  trimmed (trim : Pattern → List Char → List Char) : Shell (List Piece) := do
    match ← valueOf name with
    | none =>
        notSet name
        return []
    | some value =>
        let text ← trimmable name quoted splits value
        let pattern := glyphs (← eval (.operand operand false))
        return trimmedPieces (trim pattern text) quoted

def enterSubshell : Shell Unit :=
  modifyProcess fun process =>
    { process with
      traps := ⟨process.traps.entries.filter fun entry => entry.2 = ""⟩
      isSubshell := true
      place := 1 }

def exitTrap : Shell Unit := do
  match (← process).traps.get? "EXIT" with
  | none => return
  | some action =>
      let status := (← process).status
      modifyProcess fun process => { process with traps := process.traps.erase "EXIT" }
      let process ← process
      let _ ← eval (.script (.start action.toList process.documents process.aliases) false)
      setStatus status

def runStarted (started : Started) : Shell Unit := do
  let status ← inCopy do
    modifyProcess fun _ => started.process
    enterSubshell
    settle (eval (.command started.body false))
    exitTrap eval
  modifyWorld fun world =>
    { world with outcomes := world.outcomes.setIfInBounds started.number status }

def runWaiting : Shell Unit := do
  let waiting := (← world).waiting
  if !waiting.isEmpty then
    modifyWorld fun world => { world with waiting := [] }
    waiting.forM (runStarted eval)
    eval .waiting

def subshell (action : Shell Unit) : Shell Nat := do
  eval .waiting
  inCopy do
    enterSubshell
    settle action
    exitTrap eval
    eval .waiting

def withoutFinalNewlines (text : List Char) : List Char :=
  (text.reverse.dropWhile (· = '\n')).reverse

def capture (action : Shell Unit) : Shell String := do
  let target ← newPipe ""
  let status ← subshell eval do
    connect 1 (some target)
    action
  modifyProcess fun process => { process with substituted := status }
  match target with
  | .pipe number => return String.ofList ((← world).pipes.getD number (.ofString "")).toList
  | _ => return ""

def commandText (body : Command) : Shell String := do
  let text ← match body with
    | .nothing => pure ""
    | body => capture eval (eval (.command body false))
  return String.ofList (withoutFinalNewlines (text.toList.filter (· ≠ Char.ofNat 0)))

def arithmeticText (expression : Word) : Shell String := do
  let text ← operandText eval expression
  let bindings := (← process).bindings
  let variableText := fun name => ((bindings.get? name).bind Binding.value).getD ""
  match Arithmetic.evaluate variableText text.toList with
  | .error (.expression reason) =>
      fail ("arithmetic expression: " ++ reason ++ ": \"" ++ text ++ "\"")
  | .error (.illegalNumber number) => fail ("Illegal number: " ++ number)
  | .ok (value, assigned) =>
      assigned.entries.forM fun (name, n) => setVariable name (String.ofList (Text.signed n))
      return String.ofList (Text.signed value)

def partPieces (splits : Bool) : Part → Shell (List Piece)
  | .char c quoted => return [.char c quoted false]
  | .quoteMark => return [.quoteMark]
  | .parameter name modifier operand quoted =>
      parameterPieces eval name modifier operand quoted splits
  | .command body quoted => do return textPieces (← commandText eval body) quoted
  | .arithmetic expression quoted => do return textPieces (← arithmeticText eval expression) quoted

def bareList : Word → Word
  | [] => []
  | .quoteMark :: .parameter "@" .value [] true :: .quoteMark :: rest =>
      .parameter "@" .value [] true :: bareList rest
  | part :: rest => part :: bareList rest

def wordPieces (splits : Bool) : Word → Shell (List Piece)
  | [] => return []
  | part :: rest => do
      let first ← partPieces eval splits part
      return first ++ (← wordPieces splits rest)

def splitting : Piece → Piece
  | .char c false _ => .char c false true
  | piece => piece

def operandPieces (word : Word) (splits : Bool) : Shell (List Piece) := do
  let expanded := expandTilde (← getVariable "HOME") false word
  return .edge false :: (← wordPieces eval splits (bareList expanded)).map splitting

def globbed (field : Pattern) : Shell (List String) := do
  if field.isMagic && !(← isOn 'f') then
    match (← world).files.fitting (← process).directory field with
    | [] => return [String.ofList field.text]
    | found => return found
  else return [String.ofList field.text]

def wordFields (word : Word) : Shell (List String) := do
  let expanded := expandTilde (← getVariable "HOME") false word
  let pieces ← wordPieces eval true (bareList expanded)
  let found ← (fields (← separators) pieces).mapM globbed
  return found.flatten

def wordsFields (words : List Word) : Shell (List String) := do
  return (← words.mapM (wordFields eval)).flatten

def wordText (word : Word) : Shell String := do
  let expanded := expandTilde (← getVariable "HOME") false word
  return piecesText (← wordPieces eval false expanded)

def wordPattern (word : Word) : Shell Pattern := do
  let expanded := expandTilde (← getVariable "HOME") false word
  return glyphs (← wordPieces eval false expanded)

def valueText (word : Word) : Shell String := do
  let expanded := expandTildes (← getVariable "HOME") true word
  return piecesText (← wordPieces eval false expanded)

def documentText (word : Word) : Shell String := do
  return piecesText (← wordPieces eval false word)

def declarationFields (word : Word) : Shell (List String) := do
  match assignment? word with
  | some (name, value) => return [name ++ "=" ++ (← valueText eval value)]
  | none => wordFields eval word

end Expansion

end ShellWalk.Script
