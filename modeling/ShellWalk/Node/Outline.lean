import ShellWalk.Node.Basic

set_option autoImplicit false

namespace ShellWalk.Node

def label (node : Node) : String :=
  node.kindName ++ " at " ++ toString (node.source.span.start.row + 1) ++ ":" ++
    toString (node.source.span.start.col + 1)

def outlineEntry (node : Node) : String :=
  if node.isAlternative then node.label ++ " (alternative)" else node.label

mutual

def outline (node : Node) : List String :=
  match node with
  | .group _ _ children => node.outlineEntry :: outlineAll children
  | .branch _ _ _ children => node.outlineEntry :: outlineAll children
  | .caseOf _ _ items => node.outlineEntry :: outlineAll items
  | .caseItem _ _ children => node.outlineEntry :: outlineAll children
  | .subshell _ children => node.outlineEntry :: outlineAll children
  | .phrase _ _ children => node.outlineEntry :: outlineAll children
  | .other _ _ children => node.outlineEntry :: outlineAll children
  | _ => [node.outlineEntry]

def outlineAll : List Node → List String
  | [] => []
  | node :: rest => node.outline ++ outlineAll rest

end

end ShellWalk.Node
