import ShellWalk.Source

set_option autoImplicit false

namespace ShellWalk

inductive GroupKind where
  | program
  | compound
  | doGroup
  | elseClause
  | pipeline
  | list
deriving DecidableEq, Repr, Inhabited

inductive BranchKind where
  | ifStatement
  | elifClause
deriving DecidableEq, Repr, Inhabited

inductive PhraseKind where
  | quoted
  | simpleExpansion
  | expansion
  | concatenation
deriving DecidableEq, Repr, Inhabited

inductive LeafKind where
  | comment
  | word
  | number
  | rawString
  | stringContent
  | commandName
  | variableName
deriving DecidableEq, Repr, Inhabited

inductive Node where
  | group (kind : GroupKind) (source : Source) (children : List Node)
  | assignment (source : Source) (name value : Option Node)
  | command (source : Source) (name : Option Node) (arguments assignments : List Node)
  | branch (kind : BranchKind) (source : Source) (condition children : List Node)
  | loop (untilTrue : Bool) (source : Source) (condition : List Node) (body : Option Node)
  | forEach (source : Source) (binder : Option Node) (values : List Node) (body : Option Node)
  | caseOf (source : Source) (subject : Option Node) (items : List Node)
  | caseItem (source : Source) (patterns children : List Node)
  | function (source : Source) (name body : Option Node)
  | subshell (source : Source) (children : List Node)
  | redirected (source : Source) (body : Option Node) (redirects : List Node)
  | phrase (kind : PhraseKind) (source : Source) (children : List Node)
  | leaf (kind : LeafKind) (source : Source)
  | other (kind : String) (source : Source) (children : List Node)
deriving Inhabited

def GroupKind.name : GroupKind → String
  | .program => "program"
  | .compound => "compound_statement"
  | .doGroup => "do_group"
  | .elseClause => "else_clause"
  | .pipeline => "pipeline"
  | .list => "list"

def BranchKind.name : BranchKind → String
  | .ifStatement => "if_statement"
  | .elifClause => "elif_clause"

def PhraseKind.name : PhraseKind → String
  | .quoted => "string"
  | .simpleExpansion => "simple_expansion"
  | .expansion => "expansion"
  | .concatenation => "concatenation"

def LeafKind.name : LeafKind → String
  | .comment => "comment"
  | .word => "word"
  | .number => "number"
  | .rawString => "raw_string"
  | .stringContent => "string_content"
  | .commandName => "command_name"
  | .variableName => "variable_name"

def GroupKind.ofName? (kind : String) : Option GroupKind :=
  [GroupKind.program, .compound, .doGroup, .elseClause, .pipeline, .list].find? (·.name = kind)

def BranchKind.ofName? (kind : String) : Option BranchKind :=
  [BranchKind.ifStatement, .elifClause].find? (·.name = kind)

def PhraseKind.ofName? (kind : String) : Option PhraseKind :=
  [PhraseKind.quoted, .simpleExpansion, .expansion, .concatenation].find? (·.name = kind)

def LeafKind.ofName? (kind : String) : Option LeafKind :=
  if kind = "special_variable_name" then some .variableName
  else [LeafKind.comment, .word, .number, .rawString, .stringContent, .commandName,
    .variableName].find? (·.name = kind)

namespace Node

def source : Node → Source
  | .group _ source _ => source
  | .assignment source _ _ => source
  | .command source _ _ _ => source
  | .branch _ source _ _ => source
  | .loop _ source _ _ => source
  | .forEach source _ _ _ => source
  | .caseOf source _ _ => source
  | .caseItem source _ _ => source
  | .function source _ _ => source
  | .subshell source _ => source
  | .redirected source _ _ => source
  | .phrase _ source _ => source
  | .leaf _ source => source
  | .other _ source _ => source

def text (node : Node) : String := node.source.text

def kindName : Node → String
  | .group kind _ _ => kind.name
  | .assignment .. => "variable_assignment"
  | .command .. => "command"
  | .branch kind _ _ _ => kind.name
  | .loop .. => "while_statement"
  | .forEach .. => "for_statement"
  | .caseOf .. => "case_statement"
  | .caseItem .. => "case_item"
  | .function .. => "function_definition"
  | .subshell .. => "subshell"
  | .redirected .. => "redirected_statement"
  | .phrase kind _ _ => kind.name
  | .leaf kind _ => kind.name
  | .other kind _ _ => kind

def children : Node → List Node
  | .group _ _ children => children
  | .branch _ _ _ children => children
  | .caseOf _ _ items => items
  | .caseItem _ _ children => children
  | .subshell _ children => children
  | .phrase _ _ children => children
  | .other _ _ children => children
  | _ => []

def isAlternative : Node → Bool
  | .group .elseClause _ _ => true
  | .branch .elifClause _ _ _ => true
  | _ => false

def isAssignment : Node → Bool
  | .assignment .. => true
  | _ => false

def isVariableName : Node → Bool
  | .leaf .variableName _ => true
  | _ => false

def assignedName? : Node → Option String
  | .assignment _ (some name) _ => some name.text
  | _ => none

end Node

end ShellWalk
