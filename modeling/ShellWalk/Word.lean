import ShellWalk.Context

set_option autoImplicit false

namespace ShellWalk

def unquote (quote : Char) (text : List Char) : List Char :=
  match text with
  | [] => text
  | first :: inner =>
      if first = quote ∧ inner.getLast? = some quote then inner.dropLast else text

def LeafKind.expand (kind : LeafKind) (text : String) : String :=
  match kind with
  | .comment => ""
  | .rawString => String.ofList (unquote '\x27' text.toList)
  | _ => text

namespace Node

mutual

def expandWith (look : String → String) : Node → String
  | .leaf kind source => kind.expand source.text
  | .phrase .quoted source _ => String.ofList (unquote '\x22' source.text.toList)
  | .phrase .simpleExpansion _ (name :: _) => look name.text
  | .phrase .expansion _ [name] => if name.isVariableName then look name.text else ""
  | .phrase .concatenation _ children => expandJoin look children
  | _ => ""

def expandJoin (look : String → String) : List Node → String
  | [] => ""
  | node :: rest => expandWith look node ++ expandJoin look rest

end

def expand (node : Node) (context : Context) : String :=
  node.expandWith fun name => context.lookupD name ""

def expandSlot (slot : Option Node) (context : Context) : String :=
  match slot with
  | some node => node.expand context
  | none => ""

def expandAll (nodes : List Node) (context : Context) : List String :=
  nodes.map fun node => node.expand context

end Node

end ShellWalk
