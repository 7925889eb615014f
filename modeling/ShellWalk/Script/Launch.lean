import ShellWalk.Script.Expansion
import ShellWalk.Script.Kind
import ShellWalk.Script.Program

set_option autoImplicit false

namespace ShellWalk.Script

open Shell Expansion

def inheritedBinding (value : String) : Binding := ⟨some value, true, false⟩

def startBindings (parent : Nat) (directory : String) (environment : Table String) :
    Table Binding :=
  let inherited := environment.entries.filterMap fun (name, value) =>
    if isName name.toList then some (name, inheritedBinding value) else none
  let own : List (String × Binding) :=
    [("IFS", ⟨some defaultSeparators, false, false⟩), ("OPTIND", ⟨some "1", false, false⟩),
      ("PPID", ⟨some (toString parent), false, false⟩), ("PS1", ⟨some "# ", false, false⟩),
      ("PS2", ⟨some "> ", false, false⟩), ("PS4", ⟨some "+ ", false, false⟩),
      ("PWD", inheritedBinding directory)]
  Table.empty.insertAll (inherited ++ own)

def startProcess (name : String) (identity parent : Nat) (directory : String)
    (environment : Table String) (streams : List (Nat × Target)) : Process where
  name := name
  identity := identity
  isSubshell := false
  arguments := []
  bindings := startBindings parent directory environment
  functions := .empty
  aliases := .empty
  options := []
  status := 0
  substituted := 0
  streams := streams
  directory := directory
  traps := .empty
  line := 0
  place := 1
  running := none
  loops := 0
  frames := []
  documents := #[]
  lastJob := none

section Evaluation

variable (eval : Eval)

def runText (text : String) (tested : Bool) : Shell Bool := do
  let process ← process
  let ran ← eval (.script (.start text.toList process.documents process.aliases) tested)
  modifyProcess fun now => { now with place := process.place }
  return ran

def shellMain (arguments : List String) : Shell Unit := do
  settle do
    let remaining ← Builtin.readOptions true arguments
    match remaining.script, remaining.words with
    | true, [] => fail "-c requires an argument"
    | true, script :: rest =>
        modifyProcess fun process =>
          { process with name := rest.headD process.name, arguments := rest.tail }
        let _ ← runText eval script false
    | false, [] =>
        let text ← consume 0 fun input => (input, [])
        let _ ← runText eval (String.ofList text) false
    | false, file :: rest =>
        if (← process).options.contains 's' then
          modifyProcess fun process => { process with arguments := remaining.words }
          let text ← consume 0 fun input => (input, [])
          let _ ← runText eval (String.ofList text) false
        else
          let process ← process
          match (← world).files.entry? process.directory file with
          | some (.data text) =>
              modifyProcess fun process => { process with name := file, arguments := rest }
              let _ ← runText eval text false
          | _ => fail ("cannot open " ++ file ++ ": No such file")
  settle (exitTrap eval)
  eval .waiting

def runShell (name : String) (arguments : List String) : Shell Unit := do
  let outer ← process
  let status ← inCopy do
    modifyProcess fun _ =>
      startProcess name (outer.identity + 1) outer.identity outer.directory (exported outer)
        outer.streams
    shellMain eval arguments
  setStatus status

def runProgram (shownName name : String) (arguments : List String) : Shell Unit :=
  if name = "sh" then runShell eval shownName arguments
  else match Program.table.lookup name with
    | some program => program arguments
    | none => setStatus 0

def runKind (shownName : String) (arguments : List String) (kind : Kind)
    (complain : String → Shell Unit) : Shell Unit := do
  match kind with
  | .program _ name => runProgram eval shownName name arguments
  | .forbidden =>
      complain "Permission denied"
      setStatus 126
  | .directory =>
      complain "Permission denied"
      setStatus 127
  | _ =>
      complain "not found"
      setStatus 127

def runNamed (name : String) (arguments : List String) (kind : Kind) : Shell Unit := do
  eval .waiting
  runKind eval name arguments kind fun reason => complain (name ++ ": " ++ reason)

def untilReturn (action : Shell Unit) : Shell Unit := fun machine =>
  match action machine with
  | .error .leaveFunction after => .ok () after
  | result => result

def evalCommand (arguments : List String) (tested : Bool) : Shell Unit := do
  if !(← runText eval (String.intercalate " " arguments) tested) then setStatus 0

def execCommand (arguments : List String) : Shell Unit := do
  match arguments with
  | [] => setStatus 0
  | name :: rest =>
      let kind ← if name.toList.contains '/' then kindOf name false else programKind name
      runNamed eval name rest kind
      match kind with
      | .directory => setStatus 126
      | .program _ _ =>
          modifyProcess fun process =>
            { process with traps := process.traps.erase "EXIT" }
      | _ => pure ()
      throw .exit

def dotCommand (arguments : List String) : Shell Unit := do
  match arguments with
  | [] => setStatus 0
  | path :: _ =>
      let process ← process
      match (← world).files.entry? process.directory path with
      | some (.data text) =>
          if path.toList.contains '/' then untilReturn do
            if !(← runText eval text false) then setStatus 0
          else fail (path ++ ": not found")
      | some .device => setStatus 0
      | _ =>
          if path.toList.contains '/' then fail ("cannot open " ++ path ++ ": No such file")
          else fail (path ++ ": not found")

def commandCommand (arguments : List String) : Shell Unit := do
  let (found, names) ← Builtin.letters ['p', 'v', 'V'] arguments
  if found.contains 'v' || found.contains 'V' then
    describe "command" (found.contains 'V') (names.take 1)
  else setStatus 0

def waitCommand (arguments : List String) : Shell Unit := do
  eval .waiting
  Builtin.wait arguments

def runBuiltin (name : String) (arguments : List String) (tested : Bool) : Shell Unit :=
  match Builtin.plain? name with
  | some action => action arguments
  | none =>
      if name = "eval" then evalCommand eval arguments tested
      else if name = "exec" then execCommand eval arguments
      else if name = "." then dotCommand eval arguments
      else if name = "type" then describe "type" true arguments
      else if name = "wait" then waitCommand eval arguments
      else commandCommand arguments

-- A failure in a command that is not special ends that command only.
def containFailure (special : Bool) (action : Shell Unit) : Shell Unit := fun machine =>
  match action machine with
  | .error .failure after => if special then .error .failure after else .ok () after
  | result => result

end Evaluation

end ShellWalk.Script
