import ShellWalk.Command.Echo
import ShellWalk.Command.Printf
import ShellWalk.Command.Test

set_option autoImplicit false

namespace ShellWalk

structure Registry where
  handlers : Table Handler

namespace Registry

def empty : Registry := ⟨.empty⟩

def register (registry : Registry) (name : String) (handler : Handler) : Registry :=
  ⟨registry.handlers.insert name handler⟩

def unregister (registry : Registry) (name : String) : Registry := ⟨registry.handlers.erase name⟩

def contains (registry : Registry) (name : String) : Bool := registry.handlers.contains name

def names (registry : Registry) : List String :=
  registry.handlers.names.mergeSort fun a b => a ≤ b

def builtins : List (String × Handler) :=
  [("echo", Echo.handler), ("printf", Printf.handler), ("true", .constant 0),
   ("false", .constant 1), (":", .constant 0), ("test", Test.handler), ("[", Test.bracketHandler)]

def registerBuiltins (registry : Registry) : Registry := ⟨registry.handlers.insertAll builtins⟩

def standard : Registry := empty.registerBuiltins

def fallback (host : Host) (name : String) (arguments : List String) (context : Context) :
    Context :=
  let completion := if context.mode = .real then host.runProgram name arguments context
    else .notFound name
  completion.apply context

def run (registry : Registry) (host : Host) (name : String) (arguments : List String)
    (context : Context) : Except String Context :=
  match registry.handlers.get? name with
  | some handler => handler host name arguments context
  | none => .ok (fallback host name arguments context)

end Registry

end ShellWalk
