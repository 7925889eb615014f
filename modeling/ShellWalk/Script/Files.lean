import ShellWalk.Script.Pattern
import ShellWalk.Table

set_option autoImplicit false

namespace ShellWalk.Script

inductive Entry where
  | directory
  | program
  | device
  | data (text : String)
deriving DecidableEq, Repr

def Entry.isDirectory : Entry → Bool
  | .directory => true
  | _ => false

abbrev Files := Table Entry

def splitAt (separator : Char) (text : List Char) : List (List Char) :=
  let parts := text.foldr
    (fun c parts => if c = separator then ([], parts.1 :: parts.2) else (c :: parts.1, parts.2))
    (([], []) : List Char × List (List Char))
  parts.1 :: parts.2

def components (path : List Char) : List (List Char) :=
  ((splitAt '/' path).foldl (fun found name =>
    if name = [] ∨ name = ['.'] then found
    else if name = ['.', '.'] then found.tail
    else name :: found) []).reverse

def joinPath (names : List (List Char)) : String :=
  if names = [] then "/" else String.ofList (names.flatMap ('/' :: ·))

def fullPath (directory path : String) : String :=
  if path.toList.head? = some '/' then joinPath (components path.toList)
  else joinPath (components (directory.toList ++ '/' :: path.toList))

namespace Files

def entry? (files : Files) (directory path : String) : Option Entry :=
  if path = "" then none
  else
    match files.get? (fullPath directory path) with
    | none => none
    | some entry =>
        if path.toList.getLast? = some '/' ∧ !entry.isDirectory then none else some entry

def parentExists (files : Files) (directory path : String) : Bool :=
  match files.get? (joinPath (components (fullPath directory path).toList).dropLast) with
  | some .directory => true
  | _ => false

def patternParts (pattern : Pattern) : List Pattern :=
  let parts := pattern.foldr
    (fun glyph parts =>
      if glyph.char = '/' then ([], parts.1 :: parts.2) else (glyph :: parts.1, parts.2))
    (([], []) : Pattern × List Pattern)
  parts.1 :: parts.2

def nameFits (pattern : Pattern) (name : List Char) : Bool :=
  pattern.accepts name && (name.head? ≠ some '.' || (pattern.head?.map Glyph.char) = some '.')

def namesIn (files : Files) (directory : List (List Char)) : List (List Char) :=
  ['.'] :: ['.', '.'] :: files.names.filterMap fun path =>
    let names := components path.toList
    if names.dropLast = directory ∧ names ≠ [] then names.getLast? else none

def expandFrom (files : Files) :
    List Pattern → List (List Char × List (List Char)) → List (List Char)
  | [], found => found.map (·.1)
  | [last], found => found.flatMap fun (text, place) =>
      (choices last place).map fun (name, _) => text ++ name
  | next :: rest, found => expandFrom files rest (found.flatMap fun (text, place) =>
      (choices next place).filterMap fun (name, deeper) =>
        if (files.get? (joinPath deeper)).any Entry.isDirectory then
          some (text ++ name ++ ['/'], deeper)
        else none)
where
  choices (pattern : Pattern) (place : List (List Char)) : List (List Char × List (List Char)) :=
    if pattern.isMagic then
      ((files.namesIn place).filter (nameFits pattern)).map fun name =>
        (name, components (joinPath (place ++ [name])).toList)
    else
      let deeper := components (joinPath place ++ "/" ++ String.ofList pattern.text).toList
      if files.contains (joinPath deeper) then [(pattern.text, deeper)] else []

def fitting (files : Files) (directory : String) (pattern : Pattern) : List String :=
  let found := match patternParts pattern with
    | [] :: rest => files.expandFrom rest [(['/'], [])]
    | parts => files.expandFrom parts [([], components directory.toList)]
  (found.map String.ofList).mergeSort fun a b => a ≤ b

end Files

end ShellWalk.Script
