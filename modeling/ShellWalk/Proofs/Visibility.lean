import Mathlib.Data.List.Nodup
import ShellWalk.Context

set_option autoImplicit false

namespace ShellWalk

namespace Table

variable {α : Type}

theorem get?_eq_none_iff (table : Table α) (name : String) :
    table.get? name = none ↔ name ∉ table.names := by
  rcases table with ⟨entries⟩
  simp only [get?, names]
  induction entries with
  | nil => simp [find]
  | cons entry rest ih =>
      rcases entry with ⟨key, value⟩
      by_cases same : key = name
      · simp [find, same]
      · simpa [find, same, Ne.symm same] using ih

theorem names_insert_eq (table : Table α) (name : String) (value : α) :
    (table.insert name value).names =
      if name ∈ table.names then table.names else table.names ++ [name] := by
  rcases table with ⟨entries⟩
  simp only [names, insert]
  induction entries with
  | nil => simp [put]
  | cons entry rest ih =>
      rcases entry with ⟨key, old⟩
      by_cases same : key = name
      · simp [put, same]
      · rw [put, if_neg same, List.map_cons, ih]
        by_cases later : name ∈ rest.map (·.1)
        · simp [later]
        · simp [later, Ne.symm same]

theorem names_erase (table : Table α) (name : String) :
    (table.erase name).names = table.names.filter (· ≠ name) := by
  simp only [names, erase, List.filter_map]
  rfl

theorem nodup_insert (table : Table α) (name : String) (value : α)
    (distinct : table.names.Nodup) : (table.insert name value).names.Nodup := by
  rw [names_insert_eq]
  by_cases present : name ∈ table.names
  · rwa [if_pos present]
  · rw [if_neg present]
    exact distinct.append (List.nodup_singleton name) (by simpa using present)

theorem nodup_insertAll (table : Table α) (entries : List (String × α))
    (distinct : table.names.Nodup) : (table.insertAll entries).names.Nodup := by
  induction entries generalizing table with
  | nil => exact distinct
  | cons entry rest ih =>
      exact ih (table.insert entry.1 entry.2) (table.nodup_insert entry.1 entry.2 distinct)

theorem names_insertAll (table : Table α) (entries : List (String × α)) (seen : List String)
    (first : table.names = seen.eraseDups) :
    (table.insertAll entries).names = (seen ++ entries.map (·.1)).eraseDups := by
  induction entries generalizing table seen with
  | nil => simpa [insertAll] using first
  | cons entry rest ih =>
      rcases entry with ⟨name, value⟩
      have next : (table.insert name value).names = (seen ++ [name]).eraseDups := by
        rw [names_insert_eq, first, List.eraseDups_append]
        by_cases present : name ∈ seen
        · simp [present, List.removeAll]
        · simp [present, List.removeAll, List.eraseDups_cons]
      have later := ih (table.insert name value) (seen ++ [name]) next
      rwa [List.append_assoc, List.singleton_append] at later

theorem getLast?_entries (table : Table α) (name : String) (distinct : table.names.Nodup) :
    (table.entries.filter (·.1 = name)).getLast?.map (·.2) = table.get? name := by
  rcases table with ⟨entries⟩
  simp only [get?, names] at distinct ⊢
  induction entries with
  | nil => rfl
  | cons entry rest ih =>
      rcases entry with ⟨key, value⟩
      rw [List.map_cons, List.nodup_cons] at distinct
      by_cases same : key = name
      · have absent : rest.filter (fun entry => decide (entry.1 = name)) = [] := by
          rw [List.filter_eq_nil_iff]
          intro entry member named
          have repeated : entry.1 = key := (of_decide_eq_true named).trans same.symm
          exact distinct.1 (List.mem_map.mpr ⟨entry, member, repeated⟩)
        simp [find, same, absent]
      · simpa [find, same] using ih distinct.2

theorem get?_insertAll_table (outer inner : Table α) (name : String)
    (distinct : inner.names.Nodup) :
    (outer.insertAll inner.entries).get? name = (inner.get? name).or (outer.get? name) := by
  rw [get?_insertAll_eq, getLast?_entries inner name distinct]

end Table

namespace Scopes

def Binds (scopes : Scopes) (name : String) : Prop :=
  ∃ scope ∈ scopes.innermostFirst, name ∈ scope.names

def Distinct (scopes : Scopes) : Prop := ∀ scope ∈ scopes.innermostFirst, scope.names.Nodup

def mergedFrom (stack : List (Table String)) : Table String :=
  stack.foldr (fun scope outer => outer.insertAll scope.entries) .empty

theorem merged_eq (scopes : Scopes) : scopes.merged = mergedFrom scopes.innermostFirst :=
  List.foldl_reverse

theorem mergedFrom_nodup (stack : List (Table String)) : (mergedFrom stack).names.Nodup := by
  induction stack with
  | nil => exact List.nodup_nil
  | cons scope outer ih => exact (mergedFrom outer).nodup_insertAll scope.entries ih

theorem mergedFrom_names (stack : List (Table String)) :
    (mergedFrom stack).names = (stack.map Table.names).reverse.flatten.eraseDups := by
  induction stack with
  | nil => rfl
  | cons scope outer ih =>
      rw [List.map_cons, List.reverse_cons, List.flatten_append, List.flatten_singleton]
      exact (mergedFrom outer).names_insertAll scope.entries _ ih

theorem mergedFrom_get? (stack : List (Table String)) (name : String)
    (distinct : ∀ scope ∈ stack, scope.names.Nodup) :
    (mergedFrom stack).get? name = search name stack := by
  induction stack with
  | nil => rfl
  | cons scope outer ih =>
      have deeper := ih fun other member => distinct other (List.mem_cons_of_mem _ member)
      have here := (mergedFrom outer).get?_insertAll_table scope name
        (distinct scope (List.mem_cons_self ..))
      rw [deeper] at here
      refine Eq.trans here ?_
      rw [search]
      cases scope.get? name <;> rfl

theorem search_eq_none_iff (name : String) (stack : List (Table String)) :
    search name stack = none ↔ ∀ scope ∈ stack, name ∉ scope.names := by
  induction stack with
  | nil => simp [search]
  | cons scope outer ih =>
      rw [search, List.forall_mem_cons, ← Table.get?_eq_none_iff, ← ih]
      cases scope.get? name <;> simp

theorem search_eq_some (name value : String) (stack : List (Table String))
    (found : search name stack = some value) :
    ∃ inner scope outer, stack = inner ++ scope :: outer ∧
      (∀ other ∈ inner, name ∉ other.names) ∧ scope.get? name = some value := by
  induction stack with
  | nil => cases found
  | cons scope outer ih =>
      cases here : scope.get? name with
      | some bound =>
          simp only [search, here] at found
          cases found
          exact ⟨[], scope, outer, rfl, by simp, here⟩
      | none =>
          simp only [search, here] at found
          obtain ⟨inner, holder, further, rfl, unbound, bound⟩ := ih found
          refine ⟨scope :: inner, holder, further, rfl, ?_, bound⟩
          exact List.forall_mem_cons.mpr ⟨(scope.get?_eq_none_iff name).mp here, unbound⟩

theorem get?_eq_none_iff (scopes : Scopes) (name : String) :
    scopes.get? name = none ↔ ¬ scopes.Binds name := by
  rw [get?, search_eq_none_iff]
  simp [Binds]

end Scopes

inductive Scopes.Operation where
  | set (name value : String)
  | unset (name : String)
  | push
  | pop
deriving DecidableEq, Repr

-- What an operation does to the names of the scopes, the innermost scope first: a new name goes
-- last, a name that is there keeps its place, and one that is taken away closes the gap.
def Scopes.Operation.order : Operation → List (List String) → List (List String)
  | .set name _, names :: outer => (if name ∈ names then names else names ++ [name]) :: outer
  | .unset name, names :: outer => names.filter (· ≠ name) :: outer
  | .push, orders => [] :: orders
  | .pop, _ :: outer => outer
  | _, [] => []

namespace Context

def operate (context : Context) : Scopes.Operation → Except String Context
  | .set name value => .ok (context.setVariable name value)
  | .unset name => .ok (context.unsetVariable name)
  | .push => .ok context.pushScope
  | .pop => context.popScope

structure Ordered (context : Context) (orders : List (List String)) : Prop where
  names : context.scopes.innermostFirst.map Table.names = orders
  distinct : context.scopes.Distinct

theorem operate_ordered (context after : Context) (orders : List (List String))
    (operation : Scopes.Operation) (ordered : context.Ordered orders)
    (done : context.operate operation = .ok after) : after.Ordered (operation.order orders) := by
  obtain ⟨rfl, distinct⟩ := ordered
  have here := distinct _ (List.mem_cons_self ..)
  have below : ∀ scope ∈ context.scopes.enclosing, scope.names.Nodup := fun scope member =>
    distinct scope (List.mem_cons_of_mem _ member)
  cases operation with
  | set name value =>
      cases done
      refine ⟨?_, List.forall_mem_cons.mpr ⟨?_, below⟩⟩
      · exact congrArg (· :: _) (context.scopes.active.names_insert_eq name value)
      · exact context.scopes.active.nodup_insert name value here
  | unset name =>
      cases done
      refine ⟨?_, List.forall_mem_cons.mpr ⟨?_, below⟩⟩
      · exact congrArg (· :: _) (context.scopes.active.names_erase name)
      · change (context.scopes.active.erase name).names.Nodup
        rw [Table.names_erase]
        exact here.filter _
  | push =>
      cases done
      exact ⟨rfl, List.forall_mem_cons.mpr ⟨List.nodup_nil, distinct⟩⟩
  | pop =>
      change context.popScope = .ok after at done
      unfold popScope Scopes.pop? at done
      cases outer : context.scopes.enclosing with
      | nil => simp [outer] at done
      | cons next rest =>
          rw [outer] at below
          simp only [outer] at done
          cases done
          refine ⟨?_, below⟩
          change (next :: rest).map Table.names =
            (context.scopes.enclosing.map Table.names)
          rw [outer]

theorem history_ordered (history : List Scopes.Operation) (context after : Context)
    (orders : List (List String)) (ordered : context.Ordered orders)
    (done : history.foldlM operate context = .ok after) :
    after.Ordered (history.foldl (fun orders operation => operation.order orders) orders) := by
  induction history generalizing context orders with
  | nil =>
      cases done
      exact ordered
  | cons operation rest ih =>
      rw [List.foldlM_cons] at done
      cases stepped : context.operate operation with
      | error message => simp [stepped, bind, Except.bind] at done
      | ok between =>
          simp only [stepped, bind, Except.bind] at done
          exact ih between _ (context.operate_ordered between orders operation ordered stepped) done

theorem start_ordered (mode : Mode) (pairs : List (String × String)) (strict : Bool) :
    (start mode (.ofList pairs) strict).Ordered [(pairs.map (·.1)).eraseDups] := by
  constructor
  · exact congrArg ([·]) (Table.empty.names_insertAll pairs [] rfl)
  · exact List.forall_mem_singleton.mpr (Table.empty.nodup_insertAll pairs List.nodup_nil)

end Context

theorem merged_view_agrees (mode : Mode) (pairs : List (String × String)) (strict : Bool)
    (history : List Scopes.Operation) (context : Context)
    (reached : history.foldlM Context.operate (.start mode (.ofList pairs) strict) = .ok context) :
    let orders := history.foldl (fun orders operation => operation.order orders)
      [(pairs.map (·.1)).eraseDups]
    context.scopes.innermostFirst.map Table.names = orders ∧
    context.visible.names = orders.reverse.flatten.eraseDups ∧
    context.visible.names.Nodup ∧
    ∀ name,
      (name ∈ context.visible.names ↔ context.scopes.Binds name) ∧
      (context.scopes.Binds name → ∃ inner scope outer value,
        context.scopes.innermostFirst = inner ++ scope :: outer ∧
        (∀ other ∈ inner, name ∉ other.names) ∧ scope.get? name = some value ∧
        context.visible.get? name = some value ∧ context.lookup name = some value) ∧
      (¬ context.scopes.Binds name →
        context.visible.get? name = none ∧ context.lookup name = context.special? name) := by
  intro orders
  obtain ⟨names, distinct⟩ := Context.history_ordered history _ context _
    (Context.start_ordered mode pairs strict) reached
  have same : ∀ name, context.visible.get? name = context.scopes.get? name := by
    intro name
    rw [Context.visible, Scopes.merged_eq, Scopes.mergedFrom_get? _ name distinct]
    rfl
  refine ⟨names, ?_, ?_, fun name => ⟨?_, ?_, ?_⟩⟩
  · rw [Context.visible, Scopes.merged_eq, Scopes.mergedFrom_names, names]
  · rw [Context.visible, Scopes.merged_eq]
    exact Scopes.mergedFrom_nodup _
  · rw [← not_iff_not, ← Table.get?_eq_none_iff, same, Scopes.get?_eq_none_iff]
  · intro bound
    obtain ⟨value, found⟩ := Option.ne_none_iff_exists'.mp
      (mt (context.scopes.get?_eq_none_iff name).mp (not_not_intro bound))
    obtain ⟨inner, scope, outer, stack, unbound, here⟩ := Scopes.search_eq_some name value _ found
    refine ⟨inner, scope, outer, value, stack, unbound, here, (same name).trans found, ?_⟩
    rw [Context.lookup, found]
  · intro unbound
    have missing := (context.scopes.get?_eq_none_iff name).mpr unbound
    refine ⟨(same name).trans missing, ?_⟩
    rw [Context.lookup, missing]

theorem merged_view_agrees_shadowed :
    let history := [.push, .set "C" "x", .set "D" "y", .set "A" "3", .unset "C", .push,
      .set "E" "z", .pop, .set "C" "6"]
    ∃ context, history.foldlM Context.operate
        (.start .simulate (.ofList [("A", "0"), ("B", "1"), ("A", "2")]) false) = .ok context ∧
      context.visible.names = ["A", "B", "D", "C"] ∧
      (∃ value, context.visible.get? "A" = some value ∧ context.lookup "A" = some value ∧
        value = "3") ∧
      context.visible.get? "E" = none ∧ context.lookup "E" = context.special? "E" := by
  intro history
  have run : ∃ context, history.foldlM Context.operate
      (.start .simulate (.ofList [("A", "0"), ("B", "1"), ("A", "2")]) false) = .ok context ∧
      context.lookup "A" = some "3" ∧ context.scopes.get? "E" = none := ⟨_, rfl, rfl, rfl⟩
  obtain ⟨context, reached, inner, gone⟩ := run
  obtain ⟨_, names, _, agree⟩ := merged_view_agrees .simulate [("A", "0"), ("B", "1"), ("A", "2")]
    false history context reached
  have listed : context.visible.names = ["A", "B", "D", "C"] := names.trans (by decide +kernel)
  obtain ⟨member, seen, _⟩ := agree "A"
  obtain ⟨_, _, _, value, _, _, _, viewed, looked⟩ := seen (member.mp (by rw [listed]; decide))
  refine ⟨context, reached, listed, ⟨value, viewed, looked, ?_⟩, (agree "E").2.2 ?_⟩
  · exact Option.some.inj (looked.symm.trans inner)
  · exact (context.scopes.get?_eq_none_iff "E").mp gone

end ShellWalk
