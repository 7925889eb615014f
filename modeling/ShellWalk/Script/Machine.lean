import ShellWalk.Script.Arithmetic
import ShellWalk.Script.Field
import ShellWalk.Script.Files
import ShellWalk.Script.Reader

set_option autoImplicit false

namespace ShellWalk.Script

inductive Target where
  | output
  | errors
  | null
  | pipe (number : Nat)
  | file (path : String)
deriving DecidableEq, Repr

structure Binding where
  value : Option String
  exported : Bool
  fixed : Bool
deriving DecidableEq, Repr

def Binding.none : Binding := ⟨.none, false, false⟩

structure Process where
  name : String
  identity : Nat
  isSubshell : Bool
  arguments : List String
  bindings : Table Binding
  functions : Table Command
  aliases : Table String
  options : List Char
  status : Nat
  substituted : Nat
  streams : List (Nat × Target)
  directory : String
  traps : Table String
  line : Nat
  place : Nat
  running : Option String
  loops : Nat
  frames : List (List (String × Option Binding))
  documents : Array Word
  lastJob : Option Nat

structure Started where
  number : Nat
  process : Process
  body : Command

structure Pipe where
  ready : List Char
  added : String

def Pipe.ofString (text : String) : Pipe := ⟨[], text⟩

def Pipe.append (pipe : Pipe) (text : String) : Pipe := { pipe with added := pipe.added ++ text }

def Pipe.toList (pipe : Pipe) : List Char :=
  if pipe.added.isEmpty then pipe.ready else pipe.ready ++ pipe.added.toList

structure World where
  output : String
  errors : String
  pipes : Array Pipe
  files : Files
  waiting : List Started
  outcomes : Array Nat

def World.append (world : World) (text : String) : Target → World
  | .output => { world with output := world.output ++ text }
  | .errors => { world with errors := world.errors ++ text }
  | .null => world
  | .pipe number => { world with pipes := world.pipes.modify number (·.append text) }
  | .file path =>
      match world.files.get? path with
      | some (.data old) => { world with files := world.files.insert path (.data (old ++ text)) }
      | _ => world

structure Machine where
  process : Process
  world : World

inductive Escape where
  | exit
  | failure
  | leaveLoops (count : Nat) (again : Bool)
  | leaveFunction
  | exhausted
deriving DecidableEq, Repr

abbrev Shell := EStateM Escape Machine

namespace Shell

variable {α : Type}

def process : Shell Process := do return (← get).process

def world : Shell World := do return (← get).world

def modifyProcess (f : Process → Process) : Shell Unit :=
  modify fun machine => { machine with process := f machine.process }

def modifyWorld (f : World → World) : Shell Unit :=
  modify fun machine => { machine with world := f machine.world }

def setStatus (status : Nat) : Shell Unit := modifyProcess fun process => { process with status }

def setLine (line : Nat) : Shell Unit := modifyProcess fun process => { process with line }

def isOn (option : Char) : Shell Bool := do return (← process).options.contains option

def target? (descriptor : Nat) : Shell (Option Target) := do
  return ((← process).streams.find? fun entry => entry.1 = descriptor).map (·.2)

def connect (descriptor : Nat) (target : Option Target) : Shell Unit :=
  modifyProcess fun process =>
    let others := process.streams.filter fun entry => entry.1 ≠ descriptor
    { process with streams := (target.map fun found => (descriptor, found)).toList ++ others }

def writeTo (target : Target) (text : String) : Shell Unit :=
  modifyWorld fun world => world.append text target

def write (descriptor : Nat) (text : String) : Shell Bool := do
  match ← target? descriptor with
  | some target =>
      writeTo target text
      return true
  | none => return false

def writeError (text : String) : Shell Unit := do
  let _ ← write 2 text

def newPipe (text : String) : Shell Target := do
  let number := (← world).pipes.size
  modifyWorld fun world => { world with pipes := world.pipes.push (.ofString text) }
  return .pipe number

def consume (descriptor : Nat) (cut : List Char → α × List Char) : Shell α := do
  match ← target? descriptor with
  | some (.pipe number) =>
      let (taken, rest) := cut ((← world).pipes.getD number (.ofString "")).toList
      modifyWorld fun world => { world with pipes := world.pipes.setIfInBounds number ⟨rest, ""⟩ }
      return taken
  | _ => return (cut []).1

def complain (message : String) : Shell Unit := do
  let process ← process
  let running := process.running.elim "" (· ++ ": ")
  writeError (process.name ++ ": " ++ toString process.line ++ ": " ++ running ++ message ++ "\n")

def fail (message : String) : Shell α := do
  complain message
  setStatus 2
  throw .failure

def binding (name : String) : Shell Binding := do
  return ((← process).bindings.get? name).getD .none

def bind (name : String) (binding : Binding) : Shell Unit :=
  modifyProcess fun process => { process with bindings := process.bindings.insert name binding }

def getVariable (name : String) : Shell (Option String) := do return (← binding name).value

def setVariable (name value : String) : Shell Unit := do
  let old ← binding name
  if old.fixed then fail (name ++ ": is read only")
  bind name { old with value := some value, exported := old.exported || (← isOn 'a') }

def restore (name : String) (old : Option Binding) : Shell Unit :=
  modifyProcess fun process =>
    { process with bindings := match old with
        | some binding => process.bindings.insert name binding
        | none => process.bindings.erase name }

def restoreAll (saved : List (String × Option Binding)) : Shell Unit :=
  saved.forM fun (name, old) => restore name old

def defaultSeparators : String := " \t\n"

def separators : Shell (List Char) := do
  return ((← getVariable "IFS").getD defaultSeparators).toList

def exported (process : Process) : Table String :=
  ⟨process.bindings.entries.filterMap fun (name, binding) =>
    if binding.exported then binding.value.map fun value => (name, value) else none⟩

def optionLetters : List Char := "efIimnsxvVECabup".toList

def isDigits (text : String) : Bool := text ≠ "" && text.toList.all Char.isDigit

def firstJob : Nat := 100000

def parameter (name : String) : Shell (Option String) := do
  let process ← process
  if name = "?" then return some (toString process.status)
  else if name = "#" then return some (toString process.arguments.length)
  else if name = "-" then
    return some (String.ofList (optionLetters.reverse.filter process.options.contains))
  else if name = "$" then return some (toString process.identity)
  else if name = "!" then return process.lastJob.map fun number => toString (number + firstJob)
  else if isDigits name then
    match (Text.natural? 10 name.toList).getD 0 with
    | 0 => return some process.name
    | place + 1 => return process.arguments[place]?
  else getVariable name

def settle (action : Shell Unit) : Shell Unit := fun machine =>
  match action machine with
  | .ok _ after => .ok () after
  | .error .exhausted after => .error .exhausted after
  | .error _ after => .ok () after

def always (action : Shell α) (after : Shell Unit) : Shell α := fun machine =>
  match action machine with
  | .ok value next =>
      match after next with
      | .ok _ last => .ok value last
      | .error escape last => .error escape last
  | .error escape next =>
      match after next with
      | .ok _ last => .error escape last
      | .error other last => .error other last

def copied (action : Shell Unit) : Shell Process := do
  let saved ← process
  settle action
  let final ← process
  modifyProcess fun _ => saved
  return final

def inCopy (action : Shell Unit) : Shell Nat := do return (← copied action).status % 256

def inName (name : String) (action : Shell α) : Shell α := do
  let old := (← process).running
  modifyProcess fun process => { process with running := some name }
  always action (modifyProcess fun process => { process with running := old })

def withStreams (action : Shell α) : Shell α := do
  let streams := (← process).streams
  always action (modifyProcess fun process => { process with streams })

end Shell

end ShellWalk.Script
