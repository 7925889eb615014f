import ShellWalk.Host

set_option autoImplicit false

namespace ShellWalk

abbrev Handler := Host → String → List String → Context → Except String Context

def Handler.constant (exitCode : Int) : Handler :=
  fun _ _ _ context => .ok ((Completion.silent exitCode).apply context)

end ShellWalk
