import ShellWalk.Node.Basic

set_option autoImplicit false

namespace ShellWalk

def Source.ofText (text : String) : Source := ⟨⟨⟨0, 0⟩, ⟨0, 0⟩⟩, text⟩

namespace Node

def ofWord (text : String) : Node := .leaf .word (.ofText text)

def ofName (name : String) : Node := .leaf .variableName (.ofText name)

def ofVariable (name : String) : Node :=
  .phrase .simpleExpansion (.ofText ("$" ++ name)) [ofName name]

def ofAssignment (name : String) (value : Node) : Node :=
  .assignment (.ofText name) (some (ofName name)) (some value)

def ofCommand (name : String) (arguments assignments : List Node) : Node :=
  .command (.ofText name) (some (.leaf .commandName (.ofText name))) arguments assignments

def ofFunction (name : String) (body : Node) : Node :=
  .function (.ofText name) (some (ofWord name)) (some body)

def ofGroup (children : List Node) : Node := .group .compound (.ofText "") children

def ofSubshell (children : List Node) : Node := .subshell (.ofText "") children

def ofLoop (untilTrue : Bool) (condition : List Node) (body : Node) : Node :=
  .loop untilTrue (.ofText "") condition (some body)

end Node

end ShellWalk
