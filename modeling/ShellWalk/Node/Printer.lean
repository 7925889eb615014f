import ShellWalk.Json.Basic
import ShellWalk.Node.Basic

set_option autoImplicit false

namespace ShellWalk

def Position.toJson (position : Position) : Json :=
  .object [("line", .nat position.line), ("column", .nat position.column)]

def Span.toJson (span : Span) : Json :=
  .object [("start", span.start.toJson), ("end", span.stop.toJson)]

namespace Node

def objectOf (kind : String) (source : Source) (members : List (String × Json)) : Json :=
  .object (("type", .string kind) :: members ++
    [("span", source.span.toJson), ("text", .string source.text)])

mutual

def toJson : Node → Json
  | .group kind source children => objectOf kind.name source [("children", .array (allToJson children))]
  | .assignment source name value => objectOf "variable_assignment" source
      [("name", slotToJson name), ("value", slotToJson value)]
  | .command source name arguments assignments => objectOf "command" source
      [("name", slotToJson name), ("arguments", .array (allToJson arguments)),
       ("prefix", .array (allToJson assignments))]
  | .branch kind source condition children => objectOf kind.name source
      [("condition", .array (allToJson condition)), ("children", .array (allToJson children))]
  | .loop untilTrue source condition body => objectOf "while_statement" source
      [("condition", .array (allToJson condition)), ("body", slotToJson body), ("until", .bool untilTrue)]
  | .forEach source binder values body => objectOf "for_statement" source
      [("variable", slotToJson binder), ("values", .array (allToJson values)), ("body", slotToJson body)]
  | .caseOf source subject items => objectOf "case_statement" source
      [("value", slotToJson subject), ("items", .array (allToJson items))]
  | .caseItem source patterns children => objectOf "case_item" source
      [("patterns", .array (allToJson patterns)), ("children", .array (allToJson children))]
  | .function source name body => objectOf "function_definition" source
      [("name", slotToJson name), ("body", slotToJson body)]
  | .subshell source children => objectOf "subshell" source [("children", .array (allToJson children))]
  | .redirected source body redirects => objectOf "redirected_statement" source
      [("body", slotToJson body), ("redirects", .array (allToJson redirects))]
  | .phrase kind source children => objectOf kind.name source [("children", .array (allToJson children))]
  | .leaf kind source => objectOf kind.name source []
  | .other kind source children => objectOf "other" source
      [("kind", .string kind), ("children", .array (allToJson children))]

def slotToJson : Option Node → Json
  | none => .null
  | some node => node.toJson

def allToJson : List Node → List Json
  | [] => []
  | node :: rest => node.toJson :: allToJson rest

end

end Node

end ShellWalk
