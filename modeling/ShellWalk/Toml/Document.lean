import ShellWalk.Toml.Value

set_option autoImplicit false

namespace ShellWalk.Toml

open Scan Read

inductive Line where
  | blank
  | binding (path : List String) (key : String) (value : Toml)
  | header (path : List String) (key : String)
  | arrayHeader (path : List String) (key : String)

def lineEnd : Scan Unit := do
  spaces
  let _ ← optional comment
  (do let _ ← newline) <|> ended

def arrayHeader : Scan Line := do
  literal ['[', '[']
  let (path, name) ← key
  literal [']', ']']
  lineEnd
  return .arrayHeader path name

def header : Scan Line := do
  char '['
  let (path, name) ← key
  char ']'
  lineEnd
  return .header path name

def binding : Scan Line := do
  let (path, name) ← key
  char '='
  spaces
  let bound ← value maxNesting
  lineEnd
  return .binding path name bound

def line : Scan Line := do
  spaces
  fun text =>
    match text with
    | '[' :: '[' :: _ => arrayHeader text
    | '[' :: _ => header text
    | _ => (binding <|> do lineEnd; return .blank) text

def lines? (text : String) : Option (List Line) :=
  let start := match text.toList with
    | '\uFEFF' :: rest => rest
    | chars => chars
  match many line start with
  | some (found, []) => some found
  | _ => none

structure Section where
  isArray : Bool
  path : List String
  key : String
  bindings : List ((List String × String) × Toml)

def sections : List Line → List ((List String × String) × Toml) × List Section
  | [] => ([], [])
  | .blank :: rest => sections rest
  | .binding path key value :: rest =>
      (((path, key), value) :: (sections rest).1, (sections rest).2)
  | .header path key :: rest => ([], ⟨false, path, key, (sections rest).1⟩ :: (sections rest).2)
  | .arrayHeader path key :: rest =>
      ([], ⟨true, path, key, (sections rest).1⟩ :: (sections rest).2)

def addTable? (opened : Section) (parent : Entries) : Option Entries :=
  let before := match Table.find opened.key parent with
    | none => some []
    | some (.table .implied inner) => some inner
    | some _ => none
  match before.bind fun entries => bindAll? .header entries opened.bindings with
  | some entries => some (Table.put opened.key (.table .header entries) parent)
  | none => none

def addArrayTable? (opened : Section) (parent : Entries) : Option Entries :=
  let before := match Table.find opened.key parent with
    | none => some []
    | some (.tables items) => some items
    | some _ => none
  match before, bindAll? .header [] opened.bindings with
  | some items, some entries =>
      some (Table.put opened.key (.tables (items ++ [entries])) parent)
  | _, _ => none

def addSection? (root : Entries) (opened : Section) : Option Entries :=
  update .implied
    (fun _ parent => if opened.isArray then addArrayTable? opened parent
      else addTable? opened parent)
    opened.path .header root

def addSections? : Entries → List Section → Option Entries
  | root, [] => some root
  | root, opened :: rest =>
      match addSection? root opened with
      | some grown => addSections? grown rest
      | none => none

def parse? (text : String) : Option Entries := do
  let (bindings, opened) := sections (← lines? text)
  let root ← bindAll? .header [] bindings
  addSections? root opened

end ShellWalk.Toml
