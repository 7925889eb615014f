import Mathlib.Data.List.Forall2
import ShellWalk.Node.OfText
import ShellWalk.Proofs.Faults
import ShellWalk.Proofs.Recast
import ShellWalk.Proofs.Wording

set_option autoImplicit false

namespace ShellWalk

namespace Node

mutual

def unplaced : Node → Node
  | .group kind source children => .group kind (.ofText source.text) (unplacedAll children)
  | .assignment source name value =>
      .assignment (.ofText source.text) (unplacedSlot name) (unplacedSlot value)
  | .command source name arguments assignments =>
      .command (.ofText source.text) (unplacedSlot name) (unplacedAll arguments)
        (unplacedAll assignments)
  | .branch kind source condition children =>
      .branch kind (.ofText source.text) (unplacedAll condition) (unplacedAll children)
  | .loop untilTrue source condition body =>
      .loop untilTrue (.ofText source.text) (unplacedAll condition) (unplacedSlot body)
  | .forEach source binder values body =>
      .forEach (.ofText source.text) (unplacedSlot binder) (unplacedAll values) (unplacedSlot body)
  | .caseOf source subject items =>
      .caseOf (.ofText source.text) (unplacedSlot subject) (unplacedAll items)
  | .caseItem source patterns children =>
      .caseItem (.ofText source.text) (unplacedAll patterns) (unplacedAll children)
  | .function source name body =>
      .function (.ofText source.text) (unplacedSlot name) (unplacedSlot body)
  | .subshell source children => .subshell (.ofText source.text) (unplacedAll children)
  | .redirected source body redirects =>
      .redirected (.ofText source.text) (unplacedSlot body) (unplacedAll redirects)
  | .phrase kind source children => .phrase kind (.ofText source.text) (unplacedAll children)
  | .leaf kind source => .leaf kind (.ofText source.text)
  | .other kind source children => .other kind (.ofText source.text) (unplacedAll children)

def unplacedAll : List Node → List Node
  | [] => []
  | node :: rest => unplaced node :: unplacedAll rest

def unplacedSlot : Option Node → Option Node
  | none => none
  | some node => some (unplaced node)

end

mutual

theorem unplaced_unplaced (node : Node) : node.unplaced.unplaced = node.unplaced := by
  cases node with
  | group kind source children => rw [unplaced, unplaced, unplacedAll_unplacedAll children]; rfl
  | assignment source name value =>
      rw [unplaced, unplaced, unplacedSlot_unplacedSlot name, unplacedSlot_unplacedSlot value]
      rfl
  | command source name arguments assignments =>
      rw [unplaced, unplaced, unplacedSlot_unplacedSlot name, unplacedAll_unplacedAll arguments,
        unplacedAll_unplacedAll assignments]
      rfl
  | branch kind source condition children =>
      rw [unplaced, unplaced, unplacedAll_unplacedAll condition, unplacedAll_unplacedAll children]
      rfl
  | loop untilTrue source condition body =>
      rw [unplaced, unplaced, unplacedAll_unplacedAll condition, unplacedSlot_unplacedSlot body]
      rfl
  | forEach source binder values body =>
      rw [unplaced, unplaced, unplacedSlot_unplacedSlot binder, unplacedAll_unplacedAll values,
        unplacedSlot_unplacedSlot body]
      rfl
  | caseOf source subject items =>
      rw [unplaced, unplaced, unplacedSlot_unplacedSlot subject, unplacedAll_unplacedAll items]
      rfl
  | caseItem source patterns children =>
      rw [unplaced, unplaced, unplacedAll_unplacedAll patterns, unplacedAll_unplacedAll children]
      rfl
  | function source name body =>
      rw [unplaced, unplaced, unplacedSlot_unplacedSlot name, unplacedSlot_unplacedSlot body]
      rfl
  | subshell source children => rw [unplaced, unplaced, unplacedAll_unplacedAll children]; rfl
  | redirected source body redirects =>
      rw [unplaced, unplaced, unplacedSlot_unplacedSlot body, unplacedAll_unplacedAll redirects]
      rfl
  | phrase kind source children => rw [unplaced, unplaced, unplacedAll_unplacedAll children]; rfl
  | leaf kind source => rfl
  | other kind source children => rw [unplaced, unplaced, unplacedAll_unplacedAll children]; rfl

theorem unplacedAll_unplacedAll (nodes : List Node) :
    unplacedAll (unplacedAll nodes) = unplacedAll nodes := by
  cases nodes with
  | nil => rfl
  | cons node rest =>
      rw [unplacedAll, unplacedAll, unplaced_unplaced node, unplacedAll_unplacedAll rest]

theorem unplacedSlot_unplacedSlot (slot : Option Node) :
    unplacedSlot (unplacedSlot slot) = unplacedSlot slot := by
  cases slot with
  | none => rfl
  | some node => rw [unplacedSlot, unplacedSlot, unplaced_unplaced node]

end

end Node

def Context.unplaced (context : Context) : Context := context.recast id (Table.map Node.unplaced)

def Malformed.unplaced (malformed : Malformed) : Malformed :=
  { malformed with line := 1, column := 1 }

def Halt.unplaced (halt : Halt) : Halt :=
  match halt.fault with
  | .malformed detail => { halt with fault := .malformed detail.unplaced }
  | .panicked _ => halt

def Outcome.unplaced : Outcome → Outcome
  | .ok after => .ok after.unplaced
  | .error halt => .error halt.unplaced

namespace Walk

section Level

variable {iterations : Nat} {dispatch : Dispatch} {run : Node → Step}

end Level

section Unplaced

variable {host : Host} {limits : Limits}

end Unplaced

end Walk

end ShellWalk
