import ShellWalk.Command.Registry
import ShellWalk.Limits
import ShellWalk.Walk.Step
import ShellWalk.Word

set_option autoImplicit false

namespace ShellWalk

structure Shell where
  host : Host
  registry : Registry
  limits : Limits

def isIdentifier : List Char → Bool
  | [] => false
  | first :: rest =>
      (first.isAlpha || first = '_') && rest.all fun c => c.isAlphanum || c = '_'

def identifierMessage (name : String) : String :=
  "for: `" ++ name ++ "': not a valid identifier"

def nestingMessage (name : String) (limit : Nat) : String :=
  name ++ ": maximum function nesting level exceeded (" ++ toString limit ++ ")"

def patternMatches (pattern subject : String) : Bool := pattern = "*" || pattern = subject

def Node.pattern (node : Node) (context : Context) : String :=
  match node with
  | .other _ source _ => source.text
  | node => node.expand context

-- How a function is called: its name, its body and the arguments.
abbrev Calling := String → Node → List String → Step

abbrev Dispatch := String → List String → Step

namespace Walk

def assign (node : Node) (name value : Option Node) : Step := fun context =>
  match name with
  | none => context.malformed node .variableName
  | some name => .ok (context.setVariable name.text (Node.expandSlot value context))

def define (node : Node) (name body : Option Node) : Step := fun context =>
  match name, body with
  | none, _ => context.malformed node .functionName
  | some _, none => context.malformed node .functionBody
  | some name, some body => .ok (context.define name.text body)

-- The items of a loop are fixed before its first round; without values they are the parameters of
-- the current call.
def items (values : List Node) (context : Context) : List String :=
  if values.isEmpty then context.positional else Node.expandAll values context

def iterate (node : Node) (binder : Option Node) (values : List Node) (body : Step) : Step :=
  fun context =>
    match binder with
    | none => context.malformed node .loopVariable
    | some binder =>
        if isIdentifier binder.text.toList then
          Step.forEach binder.text body (items values context) context
        else .ok ((context.addErrors [identifierMessage binder.text]).setExitCode 1)

structure Arm where
  patterns : List Node
  body : List Step

def Arm.accepts (arm : Arm) (subject : String) (context : Context) : Bool :=
  arm.patterns.any fun pattern => patternMatches (pattern.pattern context) subject

def select (subject : Option Node) (arms : List Arm) : Step := fun context =>
  match arms.find? fun arm => arm.accepts (Node.expandSlot subject context) context with
  | some arm => Step.sequence arm.body context
  | none => .ok context

def handle (shell : Shell) : Dispatch := fun name arguments context =>
  context.settle (shell.registry.run shell.host name arguments context)

-- A function comes before a handler of the same name.
def dispatch (shell : Shell) (call : Calling) : Dispatch := fun name arguments context =>
  match context.functions.get? name with
  | some body => call name body arguments context
  | none => handle shell name arguments context

-- Assignments in front of a function call are made in the caller's scope and taken back after the
-- call.
def callAssigning (names : List String) (assignments : List Step) (run : Step) : Step :=
  fun context => do
    let assigned ← Step.inOrder assignments context
    let after ← run assigned
    .ok (Step.restore (Step.saved names context) after)

-- Runs a command whose name is taken literally. The arguments are expanded before an assignment in
-- front of the command is made.
def command (dispatch : Dispatch) (node : Node) (name : Option Node)
    (arguments assignments : List Node) (assigning : List Step) : Step := fun context =>
  match name with
  | none => context.malformed node .commandName
  | some name =>
      let run := dispatch name.text (Node.expandAll arguments context)
      if assignments.isEmpty then run context
      else if context.functions.contains name.text then
        callAssigning (assignments.filterMap Node.assignedName?) assigning run context
      else Step.inScope (fun inner => do
        let assigned ← Step.inOrder assigning inner
        run assigned) context

mutual

def node (shell : Shell) (call : Calling) : Node → Step
  | .group _ _ children => Step.sequence (all shell call children)
  | .assignment source name value => assign (.assignment source name value) name value
  | .command source name arguments assignments =>
      command (dispatch shell call) (.command source name arguments assignments) name arguments
        assignments (all shell call assignments)
  | .branch _ _ condition children =>
      Step.conditional (all shell call condition) (body shell call children)
        (clauses shell call children)
  | .loop untilTrue _ condition body =>
      Step.loop untilTrue shell.limits.iterations (Step.sequence (all shell call condition))
        (slot shell call body)
  | .forEach source binder values body =>
      iterate (.forEach source binder values body) binder values (slot shell call body)
  | .caseOf _ subject items => select subject (arms shell call items)
  | .function source name body => define (.function source name body) name body
  | .subshell _ children => Step.inScope (Step.sequence (all shell call children))
  | .redirected _ body _ => slot shell call body
  | .caseItem .. => Step.skip
  | .phrase .. => Step.skip
  | .leaf .. => Step.skip
  | .other .. => Step.skip

def all (shell : Shell) (call : Calling) : List Node → List Step
  | [] => []
  | first :: rest => node shell call first :: all shell call rest

def slot (shell : Shell) (call : Calling) : Option Node → Step
  | none => Step.skip
  | some filled => node shell call filled

def body (shell : Shell) (call : Calling) : List Node → List Step
  | [] => []
  | first :: rest =>
      if first.isAlternative then body shell call rest
      else node shell call first :: body shell call rest

def clauses (shell : Shell) (call : Calling) : List Node → List Step.Clause
  | [] => []
  | .group .elseClause _ children :: rest =>
      .otherwise (all shell call children) :: clauses shell call rest
  | .branch .elifClause _ condition children :: rest =>
      .orElse (all shell call condition) (all shell call children) :: clauses shell call rest
  | _ :: rest => clauses shell call rest

def arms (shell : Shell) (call : Calling) : List Node → List Arm
  | [] => []
  | .caseItem _ patterns children :: rest =>
      ⟨patterns, all shell call children⟩ :: arms shell call rest
  | _ :: rest => arms shell call rest

end

theorem all_eq_map (shell : Shell) (call : Calling) (nodes : List Node) :
    all shell call nodes = nodes.map (node shell call) := by
  induction nodes with
  | nil => simp [all]
  | cons first rest ih => simp [all, ih]

theorem body_eq_map (shell : Shell) (call : Calling) (nodes : List Node) :
    body shell call nodes = (nodes.filter fun child => !child.isAlternative).map
      (node shell call) := by
  induction nodes with
  | nil => simp [body]
  | cons first rest ih => by_cases clause : first.isAlternative <;> simp [body, clause, ih]

def refuse (limits : Limits) : Calling := fun name _ _ context =>
  .ok ((context.addErrors [nestingMessage name limits.recursion]).setExitCode 1)

-- A call goes by the depth that it finds in the context, also when a handler has set it.
def call (limits : Limits) (run : Node → Step) : Calling := fun name body arguments context =>
  if limits.recursion ≤ context.callDepth then refuse limits name body arguments context
  else Step.called arguments (run body) context

def overflowMessage : String := "stack overflow"

def overflow : Node → Step := fun _ context => context.settle (.error overflowMessage)

end Walk

namespace Shell

-- The walk with room for a number of calls within each other.
def within (shell : Shell) : Nat → Node → Step
  | 0 => Walk.node shell (Walk.call shell.limits Walk.overflow)
  | room + 1 => Walk.node shell (Walk.call shell.limits (within shell room))

-- While handlers leave the depth alone, there is room for every call that the limit allows.
def walk (shell : Shell) : Node → Step := shell.within shell.limits.recursion

end Shell

end ShellWalk
