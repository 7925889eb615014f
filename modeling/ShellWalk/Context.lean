import ShellWalk.Mode
import ShellWalk.Node.Basic
import ShellWalk.Scopes
import ShellWalk.Text.Numeral

set_option autoImplicit false

namespace ShellWalk

structure Context where
  scopes : Scopes
  functions : Table Node
  exitCode : Int
  output : List String
  errors : List String
  mode : Mode
  strict : Bool
  positional : List String
  callDepth : Nat
  terminal : String
deriving Inhabited

namespace Context

def start (mode : Mode) (environment : Table String) (strict : Bool) : Context where
  scopes := .ofBase environment
  functions := .empty
  exitCode := 0
  output := []
  errors := []
  mode := mode
  strict := strict
  positional := []
  callDepth := 0
  terminal := ""

def shellName : String := "rshell"

def numbered? (parameters : List String) (name : String) : Option String :=
  match Text.index? name.toList with
  | some (place + 1) => parameters[place]?
  | _ => none

def special? (context : Context) (name : String) : Option String :=
  if name = "?" then some (String.ofList (Text.signed context.exitCode))
  else if name = "#" then some (String.ofList (Text.decimal context.positional.length))
  else if name = "@" ∨ name = "*" then some (String.intercalate " " context.positional)
  else if name = "0" then some shellName
  else numbered? context.positional name

def lookup (context : Context) (name : String) : Option String :=
  match context.scopes.get? name with
  | some value => some value
  | none => context.special? name

def lookupD (context : Context) (name fallback : String) : String :=
  (context.lookup name).getD fallback

def local? (context : Context) (name : String) : Option String := context.scopes.active.get? name

def setVariable (context : Context) (name value : String) : Context :=
  { context with scopes := context.scopes.set name value }

def unsetVariable (context : Context) (name : String) : Context :=
  { context with scopes := context.scopes.unset name }

def visible (context : Context) : Table String := context.scopes.merged

def pushScope (context : Context) : Context := { context with scopes := context.scopes.push }

def baseScopeMessage : String := "cannot pop the base scope"

def popScope (context : Context) : Except String Context :=
  match context.scopes.pop? with
  | some scopes => .ok { context with scopes := scopes }
  | none => .error baseScopeMessage

def define (context : Context) (name : String) (body : Node) : Context :=
  { context with functions := context.functions.insert name body }

def setPositional (context : Context) (arguments : List String) : Context :=
  { context with positional := arguments }

def setExitCode (context : Context) (code : Int) : Context := { context with exitCode := code }

def addOutput (context : Context) (lines : List String) : Context :=
  { context with output := context.output ++ lines }

def addErrors (context : Context) (lines : List String) : Context :=
  { context with errors := context.errors ++ lines }

def write (context : Context) (text : String) : Context :=
  if context.mode = .real then { context with terminal := context.terminal ++ text } else context

def succeeded (context : Context) : Bool := context.exitCode = 0

def stops (context : Context) : Bool := context.strict && !context.succeeded

def enterCall (context : Context) (arguments : List String) : Context :=
  { context with positional := arguments, callDepth := context.callDepth + 1 }

def leaveCall (context : Context) (positional : List String) : Context :=
  { context with positional := positional, callDepth := context.callDepth - 1 }

theorem popScope_ok (before after : Context) (done : before.popScope = .ok after) :
    after = { before with scopes := after.scopes } := by
  unfold popScope at done
  split at done
  · cases done
    rfl
  · cases done

end Context

end ShellWalk
