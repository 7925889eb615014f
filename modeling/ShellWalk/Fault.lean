import ShellWalk.Context

set_option autoImplicit false

namespace ShellWalk

inductive Missing where
  | commandName
  | variableName
  | loopVariable
  | functionName
  | functionBody
deriving DecidableEq, Repr, Inhabited

def Missing.reason : Missing → String
  | .commandName => "missing command name"
  | .variableName => "missing variable name"
  | .loopVariable => "missing loop variable"
  | .functionName => "missing function name"
  | .functionBody => "missing function body"

-- A malformed node by its kind and its start. Line and column are counted from one, by an addition
-- on 64 bits that goes on at zero behind the last number.
structure Malformed where
  kind : String
  line : Nat
  column : Nat
  missing : Missing
deriving DecidableEq, Repr, Inhabited

def Malformed.at (node : Node) (missing : Missing) : Malformed where
  kind := node.kindName
  line := (node.source.span.start.row + 1).toNat
  column := (node.source.span.start.col + 1).toNat
  missing := missing

def Malformed.message (malformed : Malformed) : String :=
  "malformed " ++ malformed.kind ++ " node at " ++ toString malformed.line ++ ":" ++
    toString malformed.column ++ ": " ++ malformed.missing.reason

inductive Fault where
  | malformed (detail : Malformed)
  | panicked (message : String)
deriving DecidableEq, Repr, Inhabited

def Fault.message : Fault → String
  | .malformed detail => "execution error: " ++ detail.message
  | .panicked message => "execution error: builtin panicked: " ++ message

structure Halt where
  fault : Fault
  terminal : String
deriving DecidableEq, Repr, Inhabited

abbrev Outcome := Except Halt Context

namespace Context

def malformed (context : Context) (node : Node) (missing : Missing) : Outcome :=
  .error ⟨.malformed (.at node missing), context.terminal⟩

def settle (context : Context) : Except String Context → Outcome
  | .ok after => .ok after
  | .error message => .error ⟨.panicked message, context.terminal⟩

end Context

end ShellWalk
