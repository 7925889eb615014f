import ShellWalk.Context
import ShellWalk.Text.Lines

set_option autoImplicit false

namespace ShellWalk

structure Completion where
  stdout : String
  stderr : String
  exitCode : Int
deriving DecidableEq, Repr, Inhabited

namespace Completion

def success (stdout : String) : Completion := ⟨stdout, "", 0⟩

def failure (stderr : String) : Completion := ⟨"", stderr, 1⟩

def silent (exitCode : Int) : Completion := ⟨"", "", exitCode⟩

def notFoundCode : Int := 127

def notFound (name : String) : Completion := ⟨"", name ++ ": command not found\n", notFoundCode⟩

def apply (completion : Completion) (context : Context) : Context :=
  ((context.addOutput (Text.linesOf completion.stdout)).addErrors
    (Text.linesOf completion.stderr)).setExitCode completion.exitCode

end Completion

end ShellWalk
