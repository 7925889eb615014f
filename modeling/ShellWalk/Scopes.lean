import ShellWalk.Table

set_option autoImplicit false

namespace ShellWalk

structure Scopes where
  active : Table String
  enclosing : List (Table String)
deriving DecidableEq, Repr, Inhabited

namespace Scopes

def ofBase (base : Table String) : Scopes := ⟨base, []⟩

def innermostFirst (scopes : Scopes) : List (Table String) := scopes.active :: scopes.enclosing

def baseFirst (scopes : Scopes) : List (Table String) := scopes.innermostFirst.reverse

def depth (scopes : Scopes) : Nat := scopes.enclosing.length + 1

def push (scopes : Scopes) : Scopes := ⟨.empty, scopes.innermostFirst⟩

def pop? (scopes : Scopes) : Option Scopes :=
  match scopes.enclosing with
  | [] => none
  | next :: rest => some ⟨next, rest⟩

def set (scopes : Scopes) (name value : String) : Scopes :=
  { scopes with active := scopes.active.insert name value }

def unset (scopes : Scopes) (name : String) : Scopes :=
  { scopes with active := scopes.active.erase name }

def search (name : String) : List (Table String) → Option String
  | [] => none
  | scope :: outer =>
      match scope.get? name with
      | some value => some value
      | none => search name outer

def get? (scopes : Scopes) (name : String) : Option String := search name scopes.innermostFirst

def merged (scopes : Scopes) : Table String :=
  scopes.baseFirst.foldl (fun outer scope => outer.insertAll scope.entries) .empty

theorem get?_eq (scopes : Scopes) (name : String) :
    scopes.get? name = (scopes.active.get? name).or (search name scopes.enclosing) := by
  simp only [get?, innermostFirst, search]
  cases scopes.active.get? name <;> rfl

theorem get?_push (scopes : Scopes) (name : String) : scopes.push.get? name = scopes.get? name :=
  rfl

theorem get?_set_self (scopes : Scopes) (name value : String) :
    (scopes.set name value).get? name = some value := by
  simp only [get?_eq, set, Table.get?_insert_self, Option.some_or]

theorem get?_set_other (scopes : Scopes) (name other value : String) (different : other ≠ name) :
    (scopes.set name value).get? other = scopes.get? other := by
  simp only [get?_eq, set, Table.get?_insert_other _ _ _ _ different]

theorem get?_unset_self (scopes : Scopes) (name : String) :
    (scopes.unset name).get? name = search name scopes.enclosing := by
  simp only [get?_eq, unset, Table.get?_erase_self, Option.none_or]

theorem get?_unset_other (scopes : Scopes) (name other : String) (different : other ≠ name) :
    (scopes.unset name).get? other = scopes.get? other := by
  simp only [get?_eq, unset, Table.get?_erase_other _ _ _ different]

end Scopes

end ShellWalk
