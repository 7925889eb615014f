import ShellWalk.Command.Completion

set_option autoImplicit false

namespace ShellWalk

structure Host where
  pathExists : String → Bool
  isFile : String → Bool
  isDirectory : String → Bool
  -- Program, arguments and environment; `none` when the program cannot be started.
  spawn : String → List String → Table String → Option Completion

namespace Host

def void : Host where
  pathExists := fun _ => false
  isFile := fun _ => false
  isDirectory := fun _ => false
  spawn := fun _ _ _ => none

def passable (text : String) : Bool := !text.toList.contains (Char.ofNat 0)

def runProgram (host : Host) (name : String) (arguments : List String) (context : Context) :
    Completion :=
  let environment := context.visible
  let texts := name :: arguments ++ environment.entries.flatMap fun entry => [entry.1, entry.2]
  if texts.all passable then
    (host.spawn name arguments environment).getD (.notFound name)
  else
    .notFound name

end Host

end ShellWalk
