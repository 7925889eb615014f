import ShellWalk.Proofs.Termination

set_option autoImplicit false

namespace ShellWalk

namespace Shell

def sequenceWithin (shell : Shell) (room : Nat) (nodes : List Node) : Step :=
  Step.sequence (nodes.map (shell.within room))

def sequence (shell : Shell) (nodes : List Node) : Step :=
  shell.sequenceWithin shell.limits.recursion nodes

section Room

variable (shell : Shell) (room : Nat)

theorem within_group (kind : GroupKind) (source : Source) (children : List Node) :
    shell.within room (.group kind source children) = shell.sequenceWithin room children :=
  Walk.within_eq_nodeWith shell room _

theorem within_redirected (source : Source) (body : Node) (redirects : List Node) :
    shell.within room (.redirected source (some body) redirects) = shell.within room body :=
  Walk.within_eq_nodeWith shell room _

theorem within_loop (untilTrue : Bool) (source : Source) (condition : List Node)
    (body : Option Node) : shell.within room (.loop untilTrue source condition body) =
      Step.loop untilTrue shell.limits.iterations (shell.sequenceWithin room condition)
        (Walk.slotWith (shell.within room) body) :=
  Walk.within_eq_nodeWith shell room _

theorem within_branch (kind : BranchKind) (source : Source) (condition children : List Node) :
    shell.within room (.branch kind source condition children) =
      Step.conditional (condition.map (shell.within room))
        ((children.filter fun child => !child.isAlternative).map (shell.within room))
        (Walk.clausesWith (shell.within room) children) :=
  Walk.within_eq_nodeWith shell room _

end Room

def call (shell : Shell) : Calling := Walk.calling shell shell.limits.recursion

theorem walk_eq (shell : Shell) (whole : Node) :
    shell.walk whole = Walk.nodeWith shell.limits.iterations (Walk.dispatch shell shell.call)
      shell.walk whole :=
  Walk.within_eq_nodeWith shell shell.limits.recursion whole

theorem walk_command (shell : Shell) (source : Source) (word : Node)
    (arguments assignments : List Node) :
    shell.walk (.command source (some word) arguments assignments) =
      Walk.command (Walk.dispatch shell shell.call)
        (.command source (some word) arguments assignments) (some word) arguments assignments
        (assignments.map shell.walk) :=
  shell.walk_eq _

variable {shell : Shell}

theorem call_eq (keeps : shell.registry.KeepsDepth shell.host) :
    shell.call = Walk.call shell.limits shell.walk := by
  funext name body arguments context
  unfold call
  cases limit : shell.limits.recursion with
  | zero =>
      have deep : shell.limits.recursion ≤ context.callDepth := by omega
      exact (if_pos deep).trans (if_pos deep).symm
  | succ room =>
      have inner := shell.within_enough keeps room body (context.enterCall arguments) (by
        simp only [Context.enterCall]
        omega)
      simp only [Walk.calling, Walk.bodies, Walk.call, Step.called, inner]

end Shell

end ShellWalk
