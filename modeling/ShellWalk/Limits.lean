set_option autoImplicit false

namespace ShellWalk

structure Limits where
  iterations : Nat
  recursion : Nat
deriving DecidableEq, Repr

def Limits.standard : Limits := ⟨1000, 100⟩

instance : Inhabited Limits := ⟨.standard⟩

end ShellWalk
