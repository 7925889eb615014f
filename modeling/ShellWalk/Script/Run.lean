import ShellWalk.Command.Completion
import ShellWalk.Script.Launch
import ShellWalk.Script.Opening
import ShellWalk.Text.Utf8

set_option autoImplicit false

namespace ShellWalk.Script

open Shell Expansion

section Evaluation

variable (eval : Eval)

def maxCalls : Nat := 1000

def callFunction (body : Command) (arguments : List String) (tested : Bool) : Shell Unit := do
  let saved ← process
  if maxCalls ≤ saved.frames.length then
    fail ("Maximum function recursion depth (" ++ toString maxCalls ++ ") reached")
  modifyProcess fun process =>
    { process with
      arguments
      loops := 0
      frames := [] :: process.frames }
  always (untilReturn (eval (.command body tested))) do
    modifyProcess fun process =>
      { process with
        arguments := saved.arguments
        loops := saved.loops }
    Builtin.leaveFrame

def inLoop (action : Shell Unit) : Shell Bool := fun machine =>
  let entered := { machine with
    process := { machine.process with loops := machine.process.loops + 1 } }
  let left (after : Machine) : Machine := { after with
    process := { after.process with loops := machine.process.loops } }
  match action entered with
  | .ok _ after => .ok true (left after)
  | .error (.leaveLoops count again) after =>
      if 1 < count then .error (.leaveLoops (count - 1) again) (left after)
      else .ok again (left after)
  | .error escape after => .error escape (left after)

def iterate (name : String) (body : Command) (tested : Bool) : List String → Shell Unit
  | [] => return
  | value :: rest => do
      setVariable name value
      if ← inLoop (eval (.command body tested)) then iterate name body tested rest

def loopRounds (untilTrue : Bool) (condition body : Command) (tested : Bool) (last : Nat) :
    Shell Unit := do
  let goesOn ← inLoop (eval (.command condition true))
  if !goesOn then setStatus last
  else if ((← process).status = 0) = untilTrue then setStatus last
  else
    let again ← inLoop (eval (.command body tested))
    if again then eval (.rounds untilTrue condition body tested (← process).status)

def firstFields : List Word → Shell (List String × List Word)
  | [] => return ([], [])
  | word :: rest => do
      match ← wordFields eval word with
      | [] => firstFields rest
      | found => return (found, rest)

def declares (name : String) : Bool := ["alias", "export", "local", "readonly"].contains name

def commandOptions : List String → Option (List String)
  | "-p" :: rest => commandOptions rest
  | "--" :: rest => some rest
  | [] => none
  | word :: rest =>
      match word.toList with
      | '-' :: _ :: _ => none
      | _ => some (word :: rest)

def commandFields (words : List Word) : Shell (List String) := do
  let (front, rest) ← firstFields eval words
  let (more, others) ←
    if front = ["command"] then firstFields eval rest else pure ([], rest)
  let name := (more ++ front).headD ""
  let isFunction := (← process).functions.contains name
  let fieldsOf := if declares name && !isFunction then declarationFields eval else wordFields eval
  return front ++ more ++ (← others.mapM fieldsOf).flatten

def assignmentText (word : Word) : Shell (String × String) := do
  match assignment? word with
  | some (name, value) => return (name, ← valueText eval value)
  | none => return ("", "")

def assignAll (exports : Bool) : List Word → Shell (List (String × String))
  | [] => return []
  | word :: rest => do
      let (name, value) ← assignmentText eval word
      Builtin.assign name value
      if exports then bind name { ← binding name with exported := true }
      return (name, value) :: (← assignAll exports rest)

def assignBriefly :
    List Word → Shell (List (String × String) × List (String × Option Binding))
  | [] => return ([], [])
  | word :: rest => do
      let (name, value) ← assignmentText eval word
      let old := (← process).bindings.get? name
      Builtin.assign name value
      bind name { ← binding name with exported := true }
      let (assigned, saved) ← assignBriefly rest
      return ((name, value) :: assigned, saved ++ [(name, old)])

def trace (errors : Option Target) (assigned : List (String × String))
    (arguments : List String) : Shell Unit := do
  if ← isOn 'x' then
    match errors with
    | none => return
    | some target =>
        let words := assigned.map (fun (name, value) => name ++ "=" ++ value) ++ arguments
        writeTo target ((← getVariable "PS4").getD "" ++ String.intercalate " " words ++ "\n")

structure Resolved where
  name : String
  arguments : List String
  kind : Kind
  special : Bool

def resolve (fields : List String) : Shell (Option Resolved) := do
  match fields with
  | [] => return none
  | name :: arguments =>
      if name = "command" ∧ !(← process).functions.contains name then
        match commandOptions arguments with
        | some (inner :: rest) => return some ⟨inner, rest, ← kindOf inner false, false⟩
        | _ => return some ⟨name, arguments, .builtin, false⟩
      else
        let kind ← kindOf name true
        return some ⟨name, arguments, kind, Builtin.isSpecial name⟩

def runResolved (command : Resolved) (tested : Bool) : Shell Unit :=
  match command.kind with
  | .function body => callFunction eval body command.arguments tested
  | .builtin =>
      containFailure command.special
        (inName command.name (runBuiltin eval command.name command.arguments tested))
  | kind => runNamed eval command.name command.arguments kind

def redirectFailure (special : Bool) : Shell Unit := do
  setStatus 2
  if special then throw .failure

def bareCommand (assignments : List Word) (redirects : List Redirect) : Shell Unit :=
  withStreams do
    let openings ← redirects.mapM (opening eval)
    let errors ← target? 2
    if ← connectAll openings then
      let assigned ← assignAll eval false assignments
      trace errors assigned []
      setStatus (← process).substituted
    else redirectFailure false

def namedCommand (command : Resolved) (assignments : List Word) (redirects : List Redirect)
    (tested : Bool) : Shell Unit := do
  let openings ← redirects.mapM (opening eval)
  let errors ← target? 2
  if ← connectAll openings then
    if command.special then
      let assigned ← assignAll eval
        (command.name = "exec" && !command.arguments.isEmpty) assignments
      trace errors assigned (command.name :: command.arguments)
      runResolved eval command tested
    else
      let before := (← process).bindings
      let (assigned, saved) ← assignBriefly eval assignments
      trace errors assigned (command.name :: command.arguments)
      always (runResolved eval command tested)
        (restoreAll (saved.map fun (name, _) => (name, before.get? name)))
  else redirectFailure command.special

def simpleCommand (line : Nat) (assignments words : List Word) (redirects : List Redirect)
    (tested : Bool) : Shell Unit := do
  modifyProcess fun process => { process with line, substituted := 0 }
  match ← resolve (← commandFields eval words) with
  | none => bareCommand eval assignments redirects
  | some command =>
      if command.name = "exec" && command.arguments.isEmpty then
        namedCommand eval command assignments redirects tested
      else withStreams (namedCommand eval command assignments redirects tested)

def pipelineStages (tested : Bool) : Option Target → List Command → Shell Unit
  | _, [] => return
  | input, stage :: rest => do
      let connectInput : Shell Unit := match input with
        | some target => connect 0 (some target)
        | none => pure ()
      match rest with
      | [] => setStatus (← subshell eval do connectInput; eval (.command stage tested))
      | _ =>
          let pipe ← newPipe ""
          let _ ← subshell eval do
            connectInput
            connect 1 (some pipe)
            eval (.command stage tested)
          pipelineStages tested (some pipe) rest

def matchesAny (subject : List Char) : List Word → Shell Bool
  | [] => return false
  | word :: rest => do
      if (← wordPattern eval word).accepts subject then return true
      else matchesAny subject rest

def selectCase (subject : List Char) (tested : Bool) :
    List (List Word × Command) → Shell Unit
  | [] => setStatus 0
  | (patterns, body) :: rest => do
      if ← matchesAny eval subject patterns then
        match body with
        | .nothing => setStatus 0
        | body => eval (.command body tested)
      else selectCase subject tested rest

def run (tested : Bool) : Command → Shell Unit
  | .nothing => return
  | .simple line assignments words redirects =>
      simpleCommand eval line assignments words redirects tested
  | .negation body => do
      eval (.command body true)
      setStatus (if (← process).status = 0 then 1 else 0)
  | .both first second => do
      eval (.command first true)
      if (← process).status = 0 then eval (.command second tested)
  | .either first second => do
      eval (.command first true)
      if (← process).status ≠ 0 then eval (.command second tested)
  | .sequence first second => do
      eval (.command first tested)
      eval (.command second tested)
  | .pipeline stages => pipelineStages eval tested none stages
  | .background body => do
      let number := (← world).outcomes.size
      let process ← process
      let started : Started :=
        ⟨number, { process with
          streams := (0, .null) :: process.streams.filter fun entry => entry.1 ≠ 0 }, body⟩
      modifyWorld fun world =>
        { world with outcomes := world.outcomes.push 0, waiting := world.waiting ++ [started] }
      modifyProcess fun process => { process with status := 0, lastJob := some number }
  | .subshell line body redirects => do
      setLine line
      let openings ← redirects.mapM (opening eval)
      setStatus (← subshell eval do
        if ← connectAll openings then eval (.command body tested) else setStatus 2)
  | .redirected line body redirects => do
      setLine line
      withStreams do
        let openings ← redirects.mapM (opening eval)
        if ← connectAll openings then eval (.command body tested)
        else
          setStatus 2
          if !tested && (← isOn 'e') then throw .exit
  | .conditional condition consequence alternative => do
      eval (.command condition true)
      if (← process).status = 0 then eval (.command consequence tested)
      else match alternative with
        | .nothing => setStatus 0
        | alternative => eval (.command alternative tested)
  | .loop untilTrue condition body => eval (.rounds untilTrue condition body tested 0)
  | .iteration line name words body => do
      setLine line
      match ← wordsFields eval words with
      | [] => setStatus 0
      | values => iterate eval name body tested values
  | .selection line subject cases => do
      setLine line
      let text ← wordText eval subject
      selectCase eval text.toList tested cases
  | .definition name body => do
      modifyProcess fun process => { process with functions := process.functions.insert name body }
      setStatus 0

def endsShell : Command → Bool
  | .simple .. | .subshell .. | .background _ | .pipeline _ => true
  | _ => false

def runChecked (body : Command) (tested : Bool) : Shell Unit := do
  if !(← isOn 'n') then
    run eval tested body
    if endsShell body && !tested && (← process).status ≠ 0 && (← isOn 'e') then throw .exit

def runScript (cursor : Cursor) (tested : Bool) : Shell Bool := do
  let process ← process
  match nextLine { cursor with documents := process.documents, aliases := process.aliases } with
  | .error malformed _ =>
      setLine malformed.line
      fail ("Syntax error: " ++ malformed.message)
  | .ok none _ => return false
  | .ok (some body) after =>
      modifyProcess fun process =>
        { process with documents := after.documents, place := after.line }
      eval (.command body tested)
      let more ← eval (.script after tested)
      match body with
      | .nothing => return more
      | _ => return true

def perform : {α : Type} → Task α → Shell α
  | _, .command body tested => runChecked eval body tested
  | _, .rounds untilTrue condition body tested last =>
      loopRounds eval untilTrue condition body tested last
  | _, .script cursor tested => runScript eval cursor tested
  | _, .operand word splits => operandPieces eval word splits
  | _, .waiting => runWaiting eval

end Evaluation

def evalAt : Nat → Eval
  | 0, _, _ => throw .exhausted
  | depth + 1, _, task => perform (evalAt depth) task

def depth : Nat := Nat.pow 2 24

def complete (files : Files) (directory name : String) (arguments : List String)
    (environment : Table String) : Completion :=
  let octetEnvironment : Table String :=
    ⟨environment.entries.map fun (name, value) => (Text.octets name, Text.octets value)⟩
  let streams : List (Nat × Target) := [(0, .null), (1, .output), (2, .errors)]
  let process := startProcess (Text.octets name) 2 1 directory octetEnvironment streams
  let world : World := ⟨"", "", #[], files, [], #[]⟩
  match settle (shellMain (evalAt depth) (arguments.map Text.octets)) ⟨process, world⟩ with
  | .ok _ final | .error _ final =>
      ⟨Text.ofOctets final.world.output, Text.ofOctets final.world.errors,
        (final.process.status % 256 : Nat)⟩

end ShellWalk.Script
