import ShellWalk.Json.Reader
import ShellWalk.Node.Basic
import ShellWalk.Text.Blank
import ShellWalk.Tree.Basic

set_option autoImplicit false

namespace ShellWalk

namespace Tree

abbrev Slots := List (String × List Node)

def Slots.many (slots : Slots) (name : String) : List Node := (Table.find name slots).getD []

def Slots.one (slots : Slots) (name : String) : Option Node := (slots.many name).head?

def startsWithWord (word text : List Char) : Bool :=
  let start := Text.trimStart text
  word.isPrefixOf start &&
    match start.drop word.length with
    | [] => true
    | next :: _ => Text.isBlank next

def isUntil (text : String) : Bool := startsWithWord "until".toList text.toList

-- A node from its parts. Of a command's children only the assignments in front of it count.
def nodeOf (kind : String) (source : Source) (children : List Node) (slots : Slots) : Node :=
  match GroupKind.ofName? kind, BranchKind.ofName? kind, PhraseKind.ofName? kind,
      LeafKind.ofName? kind with
  | some group, _, _, _ => .group group source children
  | none, some branch, _, _ => .branch branch source (slots.many "condition") children
  | none, none, some phrase, _ => .phrase phrase source children
  | none, none, none, some leaf => .leaf leaf source
  | none, none, none, none =>
      if kind = "variable_assignment" then
        .assignment source (slots.one "name") (slots.one "value")
      else if kind = "command" then
        .command source (slots.one "name") (slots.many "argument")
          (children.filter Node.isAssignment)
      else if kind = "while_statement" then
        .loop (isUntil source.text) source (slots.many "condition") (slots.one "body")
      else if kind = "for_statement" then
        .forEach source (slots.one "variable") (slots.many "value") (slots.one "body")
      else if kind = "case_statement" then .caseOf source (slots.one "value") children
      else if kind = "case_item" then .caseItem source (slots.many "value") children
      else if kind = "function_definition" then
        .function source (slots.one "name") (slots.one "body")
      else if kind = "subshell" then .subshell source children
      else if kind = "redirected_statement" then
        .redirected source (slots.one "body") (slots.many "redirect")
      else .other kind source children

mutual

def toNode : Tree → Node
  | .node kind source children fields => nodeOf kind source (toNodes children) (slotsOf fields)

def toNodes : List Tree → List Node
  | [] => []
  | tree :: rest => tree.toNode :: toNodes rest

def fieldNodes : Field → List Node
  | .one tree => [tree.toNode]
  | .many trees => toNodes trees
  | .other _ => []

def slotsOf : List (String × Field) → Slots
  | [] => []
  | (name, field) :: rest => (name, fieldNodes field) :: slotsOf rest

end

end Tree

namespace Node

def ofJson? (json : Json) : Option Node := (Tree.ofJson? json).map Tree.toNode

def parse? (text : String) : Option Node := (Json.parse? text).bind ofJson?

end Node

end ShellWalk
