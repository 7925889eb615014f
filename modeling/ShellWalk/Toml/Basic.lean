import ShellWalk.Table

set_option autoImplicit false

namespace ShellWalk

-- How a table came about: in braces, by a header, or on the way to the table of a header or of a
-- dotted key.
inductive Toml.Origin where
  | inline
  | header
  | implied
  | dotted
deriving DecidableEq, Repr

inductive Toml where
  | string (text : String)
  | integer (value : Int)
  | float (spelling : List Char)
  | boolean (value : Bool)
  | moment (spelling : List Char)
  | array (items : List Toml)
  | table (origin : Toml.Origin) (entries : List (String × Toml))
  | tables (items : List (List (String × Toml)))

namespace Toml

abbrev Entries := List (String × Toml)

def Origin.isOpen : Origin → Bool
  | .implied => true
  | .dotted => true
  | _ => false

-- Changes the table at the end of a path, and makes the tables on the way that are missing. The
-- last table of an array of tables stands for the array.
def update (made : Origin) (change : Origin → Entries → Option Entries) :
    List String → Origin → Entries → Option Entries
  | [], origin, entries => change origin entries
  | key :: path, _, entries =>
      match Table.find key entries with
      | none =>
          (update made change path made []).map fun inner =>
            Table.put key (.table made inner) entries
      | some (.table origin inner) =>
          if origin = .inline ∨ (made = .dotted ∧ origin.isOpen = false) then none
          else (update made change path origin inner).map fun inner =>
            Table.put key (.table origin inner) entries
      | some (.tables items) =>
          (update made change path .header (items.getLast?.getD [])).map fun last =>
            Table.put key (.tables (items.dropLast ++ [last])) entries
      | some _ => none

-- Binds a dotted key below a table. A key is bound once, and a dotted key adds only to tables that
-- dotted keys have made.
def bind? (origin : Origin) (entries : Entries) (path : List String) (key : String)
    (value : Toml) : Option Entries :=
  update .dotted (fun reached inner =>
    if decide (reached = .dotted) = path.isEmpty then none
    else if (Table.find key inner).isSome then none
    else some (Table.put key value inner)) path origin entries

end Toml

end ShellWalk
