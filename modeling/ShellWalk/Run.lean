import ShellWalk.Node.Printer
import ShellWalk.Options
import ShellWalk.Walk.Basic

set_option autoImplicit false

namespace ShellWalk

def Options.start (options : Options) : Context :=
  .start options.mode options.environment options.strict

def Shell.standard (host : Host) : Shell := ⟨host, .standard, .standard⟩

def Shell.run (shell : Shell) (program : Node) (options : Options) : Outcome :=
  shell.walk program options.start

namespace Context

def scopeToJson (scope : Table String) : Json :=
  .object (scope.entries.map fun entry => (entry.1, .string entry.2))

def pairsToJson (table : Table String) : Json :=
  .array (table.entries.map fun entry => .strings [entry.1, entry.2])

def functionsToJson (context : Context) : Json :=
  .object (context.functions.entries.map fun entry => (entry.1, entry.2.toJson))

def membersWith (functions : Json) (context : Context) : List (String × Json) :=
  [("scopes", .array (context.scopes.baseFirst.map scopeToJson)),
   ("functions", functions),
   ("exit_code", .integer context.exitCode),
   ("output", .strings context.output),
   ("errors", .strings context.errors),
   ("mode", .string context.mode.name),
   ("strict", .bool context.strict),
   ("positional", .strings context.positional),
   ("call_depth", .nat context.callDepth)]

def toJson (context : Context) : Json := .object (context.membersWith context.functionsToJson)

def report (context : Context) : List (String × Json) :=
  [("context", context.toJson),
   ("exit_code", .integer context.exitCode),
   ("output", .strings context.output),
   ("errors", .strings context.errors)]

end Context

end ShellWalk
