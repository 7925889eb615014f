import ShellWalk.Fault

set_option autoImplicit false

namespace ShellWalk

abbrev Step := Context → Outcome

namespace Step

def skip : Step := fun context => .ok context

def sequence : List Step → Step
  | [], context => .ok context
  | step :: rest, context => do
      let after ← step context
      if after.stops then .ok after else sequence rest after

inductive Clause where
  | otherwise (body : List Step)
  | orElse (condition body : List Step)

def alternatives : List Clause → Step
  | [], context => .ok context
  | .otherwise body :: _, context => sequence body context
  | .orElse condition body :: rest, context => do
      let after ← sequence condition context
      if after.succeeded then sequence body after else alternatives rest after

def conditional (condition body : List Step) (clauses : List Clause) : Step := fun context => do
  let after ← sequence condition context
  if after.succeeded then sequence body after else alternatives clauses after

def proceeds (untilTrue : Bool) (context : Context) : Bool := context.succeeded != untilTrue

def loopKeyword (untilTrue : Bool) : String := if untilTrue then "until" else "while"

def loopMessage (untilTrue : Bool) (limit : Nat) : String :=
  loopKeyword untilTrue ++ " loop exceeded maximum iterations (" ++ toString limit ++ ")"

-- Rounds of condition and body. When no round is left the condition runs once more, and a loop that
-- would still go on is reported.
def rounds (untilTrue : Bool) (limit : Nat) (condition body : Step) : Nat → Step
  | 0, context => do
      let after ← condition context
      if proceeds untilTrue after then .ok (after.addErrors [loopMessage untilTrue limit])
      else .ok after
  | left + 1, context => do
      let checked ← condition context
      if proceeds untilTrue checked then
        let after ← body checked
        if after.stops then .ok after else rounds untilTrue limit condition body left after
      else .ok checked

def loop (untilTrue : Bool) (limit : Nat) (condition body : Step) : Step :=
  rounds untilTrue limit condition body limit

def forEach (name : String) (body : Step) : List String → Step
  | [], context => .ok context
  | item :: rest, context => do
      let after ← body (context.setVariable name item)
      if after.stops then .ok after else forEach name body rest after

def inScope (step : Step) : Step := fun context => do
  let after ← step context.pushScope
  after.settle after.popScope

def inOrder : List Step → Step
  | [], context => .ok context
  | step :: rest, context => do
      let after ← step context
      inOrder rest after

def called (arguments : List String) (body : Step) : Step := fun context => do
  let after ← body (context.enterCall arguments)
  .ok (after.leaveCall context.positional)

def restoreBinding (binding : String × Option String) (context : Context) : Context :=
  match binding.2 with
  | some value => context.setVariable binding.1 value
  | none => context.unsetVariable binding.1

def restore (bindings : List (String × Option String)) (context : Context) : Context :=
  bindings.foldr restoreBinding context

def saved (names : List String) (context : Context) : List (String × Option String) :=
  names.map fun name => (name, context.local? name)

end Step

end ShellWalk
