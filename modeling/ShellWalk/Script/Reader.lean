import ShellWalk.Script.Reader.Lexer

set_option autoImplicit false

namespace ShellWalk.Script

namespace Reader

variable (parse : Parse)

def redirection (descriptor : Nat) (operator : RedirectOperator) : Reader Redirect := do
  let literal := match operator with
    | .document _ => true
    | _ => false
  match ← readToken parse { literal } with
  | .word word =>
      match operator with
      | .path access => return .path descriptor access word
      | .duplicate => return .duplicate descriptor word
      | .document stripsTabs =>
          let cursor ← get
          let mark := word.filterMap fun part =>
            match part with
            | .char c _ => some c
            | _ => none
          let awaited : Awaited :=
            ⟨cursor.documents.size, mark, !word.any Part.isQuoting, stripsTabs⟩
          set { cursor with
            awaited := cursor.awaited ++ [awaited]
            documents := cursor.documents.push [] }
          return .document descriptor awaited.number
  | token => unexpected token none

def redirections (check : Check) : Reader (List Redirect) :=
  iterate (fun found => do
    match ← readToken parse check with
    | .redirect descriptor operator =>
        return .inl ((← redirection parse descriptor operator) :: found)
    | token =>
        hold token
        return .inr found.reverse) []

def specialCommands : List String :=
  [".", ":", "break", "continue", "eval", "exec", "exit", "export", "local", "readonly", "return",
    "set", "shift", "times", "trap", "unset"]

structure SimpleParts where
  assignments : List Word
  words : List Word
  redirects : List Redirect

def definition (name : Word) : Reader Command := do
  let token ← readToken parse {}
  if !token.isClosing then unexpected token (some Token.closing.name)
  match plainText? name with
  | some text =>
      if isName text && !specialCommands.contains (String.ofList text) then
        return .definition (String.ofList text) (← parse .command)
      else fail "Bad function name"
  | none => fail "Bad function name"

def simpleCommand : Reader Command := do
  let line := (← get).line
  iterate (fun (state : SimpleParts) => do
    let finish : Reader (SimpleParts ⊕ Command) :=
      return .inr (.simple line state.assignments.reverse state.words.reverse
        state.redirects.reverse)
    match ← readToken parse { aliases := state.words.isEmpty } with
    | .word word =>
        if state.words.isEmpty && (assignment? word).isSome then
          return .inl { state with assignments := word :: state.assignments }
        else return .inl { state with words := word :: state.words }
    | .redirect descriptor operator =>
        let redirect ← redirection parse descriptor operator
        return .inl { state with redirects := redirect :: state.redirects }
    | token =>
        match token, state with
        | .opening, ⟨[], [name], []⟩ => return .inr (← definition parse name)
        | _, _ =>
            hold token
            finish) ⟨[], [], []⟩

def conditional : Reader Command := do
  let branches ← iterate (fun found => do
    let condition ← parse (.list .block)
    expectKeyword parse {} "then"
    let consequence ← parse (.list .block)
    let token ← readToken parse {}
    let found := (condition, consequence) :: found
    if token.isKeyword "elif" then return .inl found
    else if token.isKeyword "else" then return .inr (found, ← parse (.list .block))
    else
      hold token
      return .inr (found, .nothing)) []
  return branches.1.foldl (fun rest (condition, consequence) =>
    .conditional condition consequence rest) branches.2

def loop (untilTrue : Bool) : Reader Command := do
  let condition ← parse (.list .block)
  expectKeyword parse {} "do"
  return .loop untilTrue condition (← parse (.list .block))

def wordList : Reader (List Word × Token) :=
  iterate (fun found => do
    match ← readToken parse {} with
    | .word word => return .inl (word :: found)
    | token => return .inr (found.reverse, token)) []

def allParameters : Word := [.quoteMark, .parameter "@" .value [] true, .quoteMark]

def iteration (line : Nat) : Reader Command := do
  let name ← match ← readToken parse {} with
    | .word word =>
        match plainText? word with
        | some text =>
            if isName text then pure (String.ofList text) else fail "Bad for loop variable"
        | none => fail "Bad for loop variable"
    | _ => fail "Bad for loop variable"
  let token ← readToken parse .nextCommand
  let words ←
    if token.isKeyword "in" then
      let (words, final) ← wordList parse
      match final with
      | .newline | .semicolon => pure words
      | final => unexpected final none
    else
      match token with
      | .semicolon => pure ()
      | token => hold token
      pure [allParameters]
  expectKeyword parse .nextCommand "do"
  return .iteration line name words (← parse (.list .block))

def patternOf : Token → Word
  | .word word => word
  | .keyword text => text.toList.map (.char · false)
  | _ => []

def casePatterns (first : Token) : Reader (List Word) :=
  iterate (fun (state : List Word × Token) => do
    let found := patternOf state.2 :: state.1
    let token ← readToken parse {}
    if token.isPipe then return .inl (found, ← readToken parse {})
    else if token.isClosing then return .inr found.reverse
    else unexpected token (some Token.closing.name)) ([], first)

def selection (line : Nat) : Reader Command := do
  let subject ← match ← readToken parse {} with
    | .word word => pure word
    | token => unexpected token (some "word")
  expectKeyword parse .nextCommand "in"
  let caseCheck : Check := { newlines := true, keywords := true }
  let cases ← iterate (fun found => do
    let token ← readToken parse caseCheck
    if token.isKeyword "esac" then return .inr found.reverse
    let first ← match token with
      | .opening => readToken parse {}
      | token => pure token
    let patterns ← casePatterns parse first
    let body ← parse (.list .inner)
    let found := (patterns, body) :: found
    match ← readToken parse caseCheck with
    | .endOfCase => return .inl found
    | token =>
        if token.isKeyword "esac" then return .inr found.reverse
        else unexpected token (some Token.endOfCase.name)) []
  return .selection line subject cases

def closed (command : Reader Command) (text : String) : Reader Command := do
  let body ← command
  expectKeyword parse {} text
  return body

def compound? (line : Nat) : Token → Option (Reader Command)
  | .keyword "if" => some (closed parse (conditional parse) "fi")
  | .keyword "while" => some (closed parse (loop parse false) "done")
  | .keyword "until" => some (closed parse (loop parse true) "done")
  | .keyword "for" => some (closed parse (iteration parse line) "done")
  | .keyword "case" => some (selection parse line)
  | .keyword "\x7b" => some (closed parse (parse (.list .block)) "\x7d")
  | .opening => some do
      let body ← parse (.list .block)
      let token ← readToken parse {}
      if !token.isClosing then unexpected token (some Token.closing.name)
      return .subshell line body []
  | _ => none

def redirect (line : Nat) (redirects : List Redirect) (body : Command) : Command :=
  if redirects.isEmpty then body
  else match body with
    | .subshell first inner _ => .subshell first inner redirects
    | body => .redirected line body redirects

def command (check : Check) : Reader Command := do
  let line := (← get).line
  let token ← readToken parse check
  match compound? parse line token with
  | some reader =>
      let body ← reader
      return redirect line (← redirections parse .command) body
  | none =>
      match token with
      | .word _ | .redirect _ _ =>
          hold token
          simpleCommand parse
      | token => unexpected token none

def pipeline (check : Check) : Reader Command := do
  let token ← readToken parse check
  let negated := token.isKeyword "!"
  if !negated then hold token
  let first ← command parse (if negated then .command else {})
  let stages ← iterate (fun found => do
    let token ← readToken parse {}
    if token.isPipe then return .inl ((← command parse .nextCommand) :: found)
    else
      hold token
      return .inr found.reverse) [first]
  let body := match stages with
    | [only] => only
    | stages => .pipeline stages
  return if negated then .negation body else body

def conjunction : Reader Command := do
  let first ← pipeline parse {}
  iterate (fun found => do
    match ← readToken parse {} with
    | .both => return .inl (.both found (← pipeline parse .nextCommand))
    | .either => return .inl (.either found (← pipeline parse .nextCommand))
    | token =>
        hold token
        return .inr found) first

def append : Command → Command → Command
  | .nothing, second => second
  | first, second => .sequence first second

def list (kind : ListKind) : Reader Command :=
  iterate (fun (state : Command × Bool) => do
    let token ← readToken parse { Check.command with newlines := kind ≠ .line }
    match token with
    | .newline =>
        readDocuments parse
        return .inr state.1
    | .ended =>
        readDocuments parse
        hold token
        return .inr state.1
    | token =>
        hold token
        if token.endsList && (kind = .inner || (kind = .block && state.2)) then return .inr state.1
        let next ← conjunction parse
        match ← readToken parse {} with
        | .ampersand => return .inl (append state.1 (.background next), true)
        | .semicolon => return .inl (append state.1 next, true)
        | .newline =>
            readDocuments parse
            if kind = .line then return .inr (append state.1 next)
            else return .inl (append state.1 next, true)
        | .ended =>
            hold .ended
            return .inl (append state.1 next, true)
        | token =>
            if kind = .line then unexpected token none
            hold token
            return .inr (append state.1 next)) (.nothing, false)

def substitution : Reader Command := do
  let outer ← get
  modify fun cursor => { cursor with awaited := [], within := none }
  let body ← parse (.list .inner)
  let token ← readToken parse {}
  if !token.isClosing then unexpected token (some Token.closing.name)
  modify fun cursor => { cursor with awaited := outer.awaited, within := outer.within }
  return body

def backquoted (text : List Char) : Reader Command := do
  let outer ← get
  set { Cursor.start text outer.documents outer.aliases with outer := outer.inUse }
  let body ← parse (.list .inner)
  readDocuments parse
  set { outer with documents := (← get).documents }
  return body

def read : {α : Type} → Goal α → Reader α
  | _, .list kind => list parse kind
  | _, .command => command parse .nextCommand
  | _, .substitution => substitution parse
  | _, .backquoted text => backquoted parse text
  | _, .quoted literal braced => parts (quotedPart parse literal braced)
  | _, .operand true => quotedOperand parse
  | _, .operand false => parts (operandPart parse)
  | _, .expression => expressionText parse

def parseAt : Nat → Parse
  | 0, _, _ => fail "end of file unexpected"
  | depth + 1, _, goal => read (parseAt depth) goal

end Reader

def nextLine : Reader (Option Command) := do
  let cursor ← get
  let body ← Reader.parseAt (2 * cursor.bound) (.list .line)
  let after ← get
  set { after with held := none }
  match body, after.held with
  | .nothing, some .ended => return none
  | body, _ => return some body

end ShellWalk.Script
