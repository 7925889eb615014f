set_option autoImplicit false

namespace ShellWalk

structure Table (α : Type) where
  entries : List (String × α)
deriving DecidableEq, Repr, Inhabited

namespace Table

variable {α : Type}

def empty : Table α := ⟨[]⟩

def find (name : String) : List (String × α) → Option α
  | [] => none
  | (key, value) :: tail => if key = name then some value else find name tail

def put (name : String) (value : α) : List (String × α) → List (String × α)
  | [] => [(name, value)]
  | (key, old) :: tail =>
      if key = name then (key, value) :: tail else (key, old) :: put name value tail

def get? (table : Table α) (name : String) : Option α := find name table.entries

def insert (table : Table α) (name : String) (value : α) : Table α :=
  ⟨put name value table.entries⟩

def erase (table : Table α) (name : String) : Table α :=
  ⟨table.entries.filter fun entry => entry.1 ≠ name⟩

def contains (table : Table α) (name : String) : Bool := (table.get? name).isSome

def names (table : Table α) : List String := table.entries.map (·.1)

def insertAll (table : Table α) (entries : List (String × α)) : Table α :=
  entries.foldl (fun bound entry => bound.insert entry.1 entry.2) table

def ofList (entries : List (String × α)) : Table α := empty.insertAll entries

theorem get?_empty (name : String) : (empty : Table α).get? name = none := rfl

theorem find_put_self (name : String) (value : α) (entries : List (String × α)) :
    find name (put name value entries) = some value := by
  induction entries with
  | nil => simp [put, find]
  | cons entry tail ih =>
      rcases entry with ⟨key, old⟩
      by_cases same : key = name
      · simp [put, find, same]
      · simp [put, find, same, ih]

theorem find_put_other (name other : String) (value : α) (entries : List (String × α))
    (different : other ≠ name) : find other (put name value entries) = find other entries := by
  induction entries with
  | nil => simp [put, find, Ne.symm different]
  | cons entry tail ih =>
      rcases entry with ⟨key, old⟩
      by_cases same : key = name
      · simp [put, find, same, Ne.symm different]
      · by_cases hit : key = other
        · subst hit
          simp [put, find, same]
        · simp [put, find, same, hit, ih]

theorem get?_insert_self (table : Table α) (name : String) (value : α) :
    (table.insert name value).get? name = some value :=
  find_put_self name value table.entries

theorem get?_insert_other (table : Table α) (name other : String) (value : α)
    (different : other ≠ name) : (table.insert name value).get? other = table.get? other :=
  find_put_other name other value table.entries different

theorem find_filter_self (name : String) (entries : List (String × α)) :
    find name (entries.filter fun entry => entry.1 ≠ name) = none := by
  induction entries with
  | nil => rfl
  | cons entry tail ih =>
      rcases entry with ⟨key, value⟩
      by_cases same : key = name
      · simpa [List.filter_cons, same] using ih
      · simpa [List.filter_cons, find, same] using ih

theorem find_filter_other (name other : String) (entries : List (String × α))
    (different : other ≠ name) :
    find other (entries.filter fun entry => entry.1 ≠ name) = find other entries := by
  induction entries with
  | nil => rfl
  | cons entry tail ih =>
      rcases entry with ⟨key, value⟩
      by_cases same : key = name
      · simpa [List.filter_cons, find, same, Ne.symm different] using ih
      · by_cases hit : key = other
        · simp [find, hit, different]
        · simpa [List.filter_cons, find, same, hit] using ih

theorem get?_erase_self (table : Table α) (name : String) : (table.erase name).get? name = none :=
  find_filter_self name table.entries

theorem get?_erase_other (table : Table α) (name other : String) (different : other ≠ name) :
    (table.erase name).get? other = table.get? other :=
  find_filter_other name other table.entries different

theorem names_insert (table : Table α) (name : String) (value : α) :
    table.names <+: (table.insert name value).names := by
  rcases table with ⟨entries⟩
  simp only [names, insert]
  induction entries with
  | nil => exact List.nil_prefix
  | cons entry tail ih =>
      rcases entry with ⟨key, old⟩
      by_cases same : key = name
      · simp [put, same]
      · simpa [put, same] using ih

theorem get?_insert_or (table : Table α) (name other : String) (value found : α)
    (here : (table.insert name value).get? other = some found) :
    (other = name ∧ found = value) ∨ table.get? other = some found := by
  by_cases same : other = name
  · subst same
    rw [get?_insert_self] at here
    exact .inl ⟨rfl, (Option.some.inj here).symm⟩
  · rw [get?_insert_other table name other value same] at here
    exact .inr here

theorem find_mem (name : String) (value : α) (entries : List (String × α))
    (found : find name entries = some value) : (name, value) ∈ entries := by
  induction entries with
  | nil => cases found
  | cons entry tail ih =>
      rcases entry with ⟨key, bound⟩
      by_cases same : key = name
      · simp only [find, if_pos same, Option.some.injEq] at found
        simp [same, found]
      · simp only [find, if_neg same] at found
        exact List.mem_cons_of_mem _ (ih found)

theorem mem_put (name : String) (value : α) (entries : List (String × α)) (entry : String × α)
    (member : entry ∈ put name value entries) : entry = (name, value) ∨ entry ∈ entries := by
  induction entries with
  | nil => exact .inl (List.mem_singleton.mp member)
  | cons first tail ih =>
      rcases first with ⟨key, old⟩
      by_cases same : key = name
      · subst same
        rw [put, if_pos rfl] at member
        exact (List.mem_cons.mp member).imp_right (List.mem_cons_of_mem _)
      · rw [put, if_neg same] at member
        rcases List.mem_cons.mp member with here | later
        · exact .inr (by simp [here])
        · exact (ih later).imp_right (List.mem_cons_of_mem _)

theorem get?_insertAll (table : Table α) (entries : List (String × α)) (name : String) (value : α)
    (found : (table.insertAll entries).get? name = some value) :
    (name, value) ∈ entries ∨ table.get? name = some value := by
  induction entries generalizing table with
  | nil => exact .inr found
  | cons entry rest ih =>
      rcases entry with ⟨key, bound⟩
      rcases ih (table.insert key bound) found with later | here
      · exact .inl (by simp [later])
      · rcases get?_insert_or table key name bound value here with ⟨rfl, rfl⟩ | before
        · exact .inl (by simp)
        · exact .inr before

theorem get?_insertAll_eq (table : Table α) (entries : List (String × α)) (name : String) :
    (table.insertAll entries).get? name =
      ((entries.filter (·.1 = name)).getLast?.map (·.2)).or (table.get? name) := by
  induction entries generalizing table with
  | nil => simp [insertAll]
  | cons entry rest ih =>
      rcases entry with ⟨key, value⟩
      change ((table.insert key value).insertAll rest).get? name = _
      rw [ih]
      by_cases same : key = name
      · subst same
        simp only [get?_insert_self, decide_true, List.filter_cons_of_pos, List.getLast?_cons]
        cases (rest.filter fun entry => decide (entry.1 = key)).getLast? <;> rfl
      · simp [same, get?_insert_other table key name value (Ne.symm same)]

theorem put_absent (name : String) (value : α) (entries : List (String × α))
    (absent : name ∉ entries.map (·.1)) : put name value entries = entries ++ [(name, value)] := by
  induction entries with
  | nil => rfl
  | cons entry rest ih =>
      rcases entry with ⟨key, old⟩
      simp only [List.map_cons, List.mem_cons, not_or] at absent
      rw [put, if_neg (Ne.symm absent.1), ih absent.2, List.cons_append]

theorem insertAll_absent (table : Table α) (entries : List (String × α))
    (distinct : (table.names ++ entries.map (·.1)).Nodup) :
    (table.insertAll entries).entries = table.entries ++ entries := by
  induction entries generalizing table with
  | nil => simp [insertAll]
  | cons entry rest ih =>
      rcases entry with ⟨key, value⟩
      have absent : key ∉ table.entries.map (·.1) := by
        intro present
        have apart := (List.nodup_append.mp distinct).2.2
        exact apart key present key (by simp) rfl
      have placed : (table.insert key value).entries = table.entries ++ [(key, value)] :=
        put_absent key value table.entries absent
      change ((table.insert key value).insertAll rest).entries = _
      rw [ih, placed, List.append_assoc, List.singleton_append]
      simpa [names, placed] using distinct

variable {β : Type}

def map (f : α → β) (table : Table α) : Table β :=
  ⟨table.entries.map fun entry => (entry.1, f entry.2)⟩

theorem get?_map (f : α → β) (table : Table α) (name : String) :
    (table.map f).get? name = (table.get? name).map f := by
  rcases table with ⟨entries⟩
  simp only [get?, map]
  induction entries with
  | nil => rfl
  | cons entry rest ih =>
      rcases entry with ⟨key, value⟩
      by_cases same : key = name
      · simp [find, same]
      · simpa [find, same] using ih

theorem names_map (f : α → β) (table : Table α) : (table.map f).names = table.names := by
  simp only [names, map, List.map_map, Function.comp_def]

theorem insert_map (f : α → β) (table : Table α) (name : String) (value : α) :
    (table.insert name value).map f = (table.map f).insert name (f value) := by
  rcases table with ⟨entries⟩
  simp only [insert, map, mk.injEq]
  induction entries with
  | nil => rfl
  | cons entry rest ih =>
      rcases entry with ⟨key, old⟩
      by_cases same : key = name
      · simp [put, same]
      · simpa [put, same] using ih

end Table

end ShellWalk
