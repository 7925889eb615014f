import ShellWalk.Proofs.Faults
import ShellWalk.Proofs.Interference
import ShellWalk.Proofs.Unfolding

set_option autoImplicit false

namespace ShellWalk

namespace Table

variable {α : Type}

def rebind (table : Table α) (name : String) (value : Option α) : Table α :=
  match value with
  | some value => table.insert name value
  | none => table.erase name

def revert (table old : Table α) (names : List String) : Table α :=
  names.foldr (fun name reverted => reverted.rebind name (old.get? name)) table

theorem get?_rebind (table : Table α) (name other : String) (value : Option α) :
    (table.rebind name value).get? other = if other = name then value else table.get? other := by
  by_cases same : other = name
  · subst same
    cases value with
    | some value => simpa [rebind] using table.get?_insert_self other value
    | none => simpa [rebind] using table.get?_erase_self other
  · cases value with
    | some value => simpa [rebind, same] using table.get?_insert_other name other value same
    | none => simpa [rebind, same] using table.get?_erase_other name other same

theorem get?_revert (table old : Table α) (names : List String) (name : String) :
    (table.revert old names).get? name =
      if name ∈ names then old.get? name else table.get? name := by
  induction names with
  | nil => rfl
  | cons first rest ih =>
      change ((table.revert old rest).rebind first (old.get? first)).get? name = _
      rw [get?_rebind, ih]
      by_cases same : name = first
      · simp [same]
      · simp [same]

-- The first entry of a name is the only one that is ever bound again, and so it can be looked at
-- apart from the rest of the table.
theorem insertAll_cons (key : String) (value : α) (rest written : List (String × α)) :
    ∃ last, insertAll ⟨(key, value) :: rest⟩ written =
        ⟨(key, last) :: (insertAll ⟨rest⟩ (written.filter (·.1 ≠ key))).entries⟩ ∧
      (key ∉ written.map (·.1) → last = value) := by
  induction written generalizing value rest with
  | nil => exact ⟨value, rfl, fun _ => rfl⟩
  | cons entry others ih =>
      rcases entry with ⟨name, bound⟩
      by_cases same : key = name
      · obtain ⟨last, opened, _⟩ := ih bound rest
        refine ⟨last, ?_, fun absent => absurd (by simp [same]) absent⟩
        change insertAll ⟨put name bound ((key, value) :: rest)⟩ others = _
        rw [put, if_pos same, opened]
        simp [same]
      · obtain ⟨last, opened, kept⟩ := ih value (put name bound rest)
        refine ⟨last, ?_, fun absent => kept fun member => absent (List.mem_cons_of_mem _ member)⟩
        change insertAll ⟨put name bound ((key, value) :: rest)⟩ others = _
        rw [put, if_neg same, opened, List.filter_cons_of_pos (by simpa using Ne.symm same)]
        rfl

theorem rebind_cons (key name : String) (bound : α) (rest : List (String × α)) (value : Option α)
    (different : key ≠ name) : rebind ⟨(key, bound) :: rest⟩ name value =
      ⟨(key, bound) :: (rebind ⟨rest⟩ name value).entries⟩ := by
  cases value with
  | some value => simp [rebind, insert, put, different]
  | none => simp [rebind, erase, different]

theorem revert_cons (key : String) (value bound : α) (rest tail : List (String × α))
    (names : List String) :
    revert ⟨(key, bound) :: rest⟩ ⟨(key, value) :: tail⟩ names =
      ⟨(key, if key ∈ names then value else bound) ::
        (revert ⟨rest⟩ ⟨tail⟩ (names.filter (· ≠ key))).entries⟩ := by
  induction names with
  | nil => rfl
  | cons first others ih =>
      change (revert ⟨(key, bound) :: rest⟩ ⟨(key, value) :: tail⟩ others).rebind first
        (get? ⟨(key, value) :: tail⟩ first) = _
      rw [ih]
      by_cases same : key = first
      · subst same
        simp [get?, find, rebind, insert, put]
      · have bound : get? ⟨(key, value) :: tail⟩ first = get? ⟨tail⟩ first := by
          simp [get?, find, same]
        rw [bound, rebind_cons key first _ _ _ same, List.filter_cons_of_pos
          (by simpa using Ne.symm same)]
        simp only [List.mem_cons, same, false_or]
        rfl

theorem revert_empty (table : Table α) (names : List String) :
    table.revert .empty names = ⟨table.entries.filter fun entry => entry.1 ∉ names⟩ := by
  induction names with
  | nil => simp [revert, List.filter_eq_self.mpr]
  | cons name rest ih =>
      change (table.revert .empty rest).erase name = _
      rw [ih, erase, List.filter_filter]
      simp [not_or]

theorem mem_insertAll (table : Table α) (written : List (String × α)) (entry : String × α)
    (member : entry ∈ (table.insertAll written).entries) :
    entry ∈ table.entries ∨ entry.1 ∈ written.map (·.1) := by
  induction written generalizing table with
  | nil => exact .inl member
  | cons first rest ih =>
      rcases ih (table.insert first.1 first.2) member with here | later
      · rcases mem_put first.1 first.2 table.entries entry here with rfl | before
        · exact .inr (by simp)
        · exact .inl before
      · exact .inr (List.mem_cons_of_mem _ later)

theorem revert_insertAll (old : Table α) (names : List String) (written : List (String × α))
    (covered : ∀ name ∈ written.map (·.1), name ∈ names) :
    (old.insertAll written).revert old names = old := by
  rcases old with ⟨entries⟩
  induction entries generalizing names written with
  | nil =>
      change (insertAll .empty written).revert .empty names = .empty
      rw [revert_empty]
      refine congrArg mk (List.filter_eq_nil_iff.mpr fun entry member => ?_)
      rcases mem_insertAll .empty written entry member with none | bound
      · cases none
      · simpa using covered entry.1 bound
  | cons entry rest ih =>
      rcases entry with ⟨key, value⟩
      obtain ⟨last, opened, kept⟩ := insertAll_cons key value rest written
      have others := ih (names.filter (· ≠ key)) (written.filter (·.1 ≠ key)) ?_
      · rw [opened, revert_cons, others]
        by_cases named : key ∈ names
        · rw [if_pos named]
        · rw [if_neg named, kept fun member => named (covered key member)]
      · simp only [List.mem_map, List.mem_filter, decide_eq_true_eq] at covered ⊢
        rintro name ⟨bound, ⟨member, different⟩, rfl⟩
        exact ⟨covered bound.1 ⟨bound, member, rfl⟩, different⟩

end Table

-- What a handler may not touch for the caller to find its names again.
structure Context.Sheltered (before after : Context) : Prop where
  enclosing : after.scopes.enclosing = before.scopes.enclosing
  positional : after.positional = before.positional

def Registry.Shelters (registry : Registry) (host : Host) : Prop :=
  ∀ name handler, registry.handlers.get? name = some handler →
    ∀ arguments before after, handler host name arguments before = .ok after →
      Context.Sheltered before after

def Node.binds : Node → Bool
  | .assignment .. => true
  | .forEach .. => true
  | _ => false

-- Nothing that a node runs, or that calls of a function defined in it would run, binds a variable.
def Node.Quiet (node : Node) : Prop := ∀ inner, Node.Reaches inner node → inner.binds = false

def Registry.KeepsScopes (registry : Registry) (host : Host) : Prop :=
  ∀ name handler, registry.handlers.get? name = some handler →
    ∀ arguments before after, handler host name arguments before = .ok after →
      after.scopes = before.scopes ∧ after.functions = before.functions

namespace Context

theorem sheltered_conserved : Conserved Sheltered where
  refl := fun _ => ⟨rfl, rfl⟩
  trans := fun _ _ _ first second =>
    ⟨second.enclosing.trans first.enclosing, second.positional.trans first.positional⟩
  setVariable := fun _ _ _ => ⟨rfl, rfl⟩
  unsetVariable := fun _ _ => ⟨rfl, rfl⟩
  define := fun _ _ _ => ⟨rfl, rfl⟩
  addErrors := fun _ _ => ⟨rfl, rfl⟩
  setExitCode := fun _ _ => ⟨rfl, rfl⟩
  inScope := by
    intro context after popped inner done
    rw [popScope_below context after inner.enclosing] at done
    cases done
    exact ⟨rfl, inner.positional⟩
  called := fun _ _ _ inner => ⟨inner.enclosing, rfl⟩

theorem special?_parameters (one other : Context) (name : String) (plain : name ≠ "?")
    (same : one.positional = other.positional) : one.special? name = other.special? name := by
  unfold special?
  rw [if_neg plain, if_neg plain, same]

theorem restore_revert (names : List String) (before after : Context) :
    Step.restore (Step.saved names before) after =
      { after with
        scopes := { after.scopes with
          active := after.scopes.active.revert before.scopes.active names } } := by
  induction names with
  | nil => rfl
  | cons name rest ih =>
      change Step.restoreBinding (name, before.local? name)
        (Step.restore (Step.saved rest before) after) = _
      rw [ih]
      change _ = { after with
        scopes := { after.scopes with
          active := (after.scopes.active.revert before.scopes.active rest).rebind name
            (before.scopes.active.get? name) } }
      unfold local?
      cases before.scopes.active.get? name <;> rfl

theorem restore_local? (names : List String) (before after : Context) (name : String) :
    (Step.restore (Step.saved names before) after).local? name =
      if name ∈ names then before.local? name else after.local? name := by
  rw [restore_revert]
  exact Table.get?_revert _ _ names name

theorem restore_visible (names : List String) (before after : Context)
    (sheltered : Sheltered before after) (name : String) (member : name ∈ names) :
    (Step.restore (Step.saved names before) after).local? name = before.local? name ∧
    (Step.restore (Step.saved names before) after).scopes.get? name = before.scopes.get? name ∧
    (name ≠ "?" →
      (Step.restore (Step.saved names before) after).lookup name = before.lookup name) := by
  have bound := restore_local? names before after name
  have seen := restore_search names before after sheltered.enclosing name
  rw [if_pos member] at bound seen
  refine ⟨bound, seen, fun plain => ?_⟩
  have parameters : (Step.restore (Step.saved names before) after).positional =
      before.positional := by
    rw [restore_fields]
    exact sheltered.positional
  rw [lookup, seen, special?_parameters _ before name plain parameters]
  rfl

end Context

namespace Walk

theorem named_walk (shell : Shell) (node : Node) (name : String)
    (named : node.assignedName? = some name) (context : Context) :
    ∃ text, shell.walk node context = .ok (context.setVariable name text) := by
  cases node with
  | assignment source binder value =>
      cases binder with
      | none => cases named
      | some binder =>
          cases named
          exact ⟨Node.expandSlot value context, congrFun (within_eq_nodeWith shell _ _) context⟩
  | _ => cases named

theorem inOrder_named (shell : Shell) (assignments : List Node)
    (named : ∀ node ∈ assignments, node.assignedName?.isSome) (context : Context) :
    ∃ written : List (String × String),
      written.map (·.1) = assignments.filterMap Node.assignedName? ∧
      Step.inOrder (assignments.map shell.walk) context = .ok { context with
        scopes := { context.scopes with active := context.scopes.active.insertAll written } } := by
  induction assignments generalizing context with
  | nil => exact ⟨[], rfl, rfl⟩
  | cons first rest ih =>
      obtain ⟨name, here⟩ := Option.isSome_iff_exists.mp (named first (List.mem_cons_self ..))
      obtain ⟨text, walked⟩ := named_walk shell first name here context
      obtain ⟨written, names, later⟩ :=
        ih (fun node member => named node (List.mem_cons_of_mem _ member))
          (context.setVariable name text)
      refine ⟨(name, text) :: written, ?_, ?_⟩
      · rw [List.map_cons, List.filterMap_cons_some here, names]
      · exact (Step.andThen_of_ok _ _ context _ walked).trans later

theorem callAssigning_nil (run : Step) : callAssigning [] [] run = run := by
  funext context
  exact congrFun (run.andThen_skip) context

theorem command_called (shell : Shell) (source : Source) (word : Node)
    (arguments assignments : List Node) (context : Context)
    (known : context.functions.contains word.text = true) :
    shell.walk (.command source (some word) arguments assignments) context =
      callAssigning (assignments.filterMap Node.assignedName?) (assignments.map shell.walk)
        (dispatch shell shell.call word.text (Node.expandAll arguments context)) context := by
  rw [shell.walk_command]
  simp only [command]
  cases assignments with
  | nil =>
      simp only [List.isEmpty_nil, if_true, List.filterMap_nil, List.map_nil, callAssigning_nil]
  | cons first rest =>
      simp only [List.isEmpty_cons, Bool.false_eq_true, if_false, known, if_true]

end Walk

theorem Shell.walk_assigning (shell : Shell) (source : Source) (word body : Node)
    (arguments assignments : List Node) (context after : Context)
    (found : context.functions.get? word.text = some body)
    (named : ∀ node ∈ assignments, node.assignedName?.isSome)
    (done : shell.walk (.command source (some word) arguments assignments) context = .ok after) :
    ∃ (written : List (String × String)) (assigned left : Context),
      written.map (·.1) = assignments.filterMap Node.assignedName? ∧
      assigned = { context with
        scopes := { context.scopes with active := context.scopes.active.insertAll written } } ∧
      Step.inOrder (assignments.map shell.walk) context = .ok assigned ∧
      shell.call word.text body (Node.expandAll arguments context) assigned = .ok left ∧
      after = Step.restore (Step.saved (assignments.filterMap Node.assignedName?) context)
        left := by
  have known : context.functions.contains word.text = true := by
    rw [Table.contains, found]
    rfl
  obtain ⟨written, names, walked⟩ := Walk.inOrder_named shell assignments named context
  rw [Walk.command_called shell source word arguments assignments context known] at done
  obtain ⟨assigned, left, ran, called, rfl⟩ := Walk.callAssigning_ok _ _ _ context after done
  rw [walked] at ran
  cases ran
  refine ⟨written, _, left, names, rfl, walked, ?_, rfl⟩
  simpa only [Walk.dispatch, found] using called

namespace Walk

def Steady (step : Step) : Prop :=
  ∀ before after, before.Stores Node.Quiet → step before = .ok after →
    after.scopes = before.scopes ∧ after.Stores Node.Quiet

theorem steady_update (change : Context → Context)
    (scopes : ∀ context, (change context).scopes = context.scopes)
    (stored : ∀ context, context.Stores Node.Quiet → (change context).Stores Node.Quiet) :
    Steady (Step.update change) := by
  intro before after quiet done
  cases done
  exact ⟨scopes before, stored before quiet⟩

theorem steady_reads {α : Type} (read : Context → α) :
    Reads (fun steps : Unit → Step => Steady (steps ())) read := by
  intro next holds before
  exact holds (read before) before

theorem steady_andThen (first second : Step) (here : Steady first) (later : Steady second) :
    Steady (first.andThen second) := by
  intro before after quiet done
  obtain ⟨between, ran, rest⟩ := Step.andThen_ok first second before after done
  obtain ⟨same, stored⟩ := here before between quiet ran
  obtain ⟨again, last⟩ := later between after stored rest
  exact ⟨again.trans same, last⟩

theorem steady_control : Control fun steps : Unit → Step => Steady (steps ()) where
  skip := steady_update id (fun _ => rfl) fun _ quiet => quiet
  andThen := fun first second => steady_andThen (first ()) (second ())
  succeeded := steady_reads _
  stops := steady_reads _

theorem steady_inScope (step : Step) (inner : Steady step) : Steady (Step.inScope step) := by
  intro before after quiet done
  obtain ⟨last, ran, left⟩ := Step.andThen_ok (fun context => step context.pushScope)
    Step.leaveScope before after done
  obtain ⟨same, stored⟩ := inner before.pushScope last quiet ran
  have popped := Step.leaveScope_ok last after left
  rw [Context.popScope_below before last (congrArg Scopes.enclosing same)] at popped
  cases popped
  exact ⟨rfl, stored⟩

theorem steady_callAssigning (names : List String) (assignments : List Step) (step : Step)
    (assigned : Steady (Step.inOrder assignments)) (inner : Steady step) :
    Steady (callAssigning names assignments step) := by
  intro before after quiet done
  obtain ⟨between, last, ran, stepped, rfl⟩ :=
    callAssigning_ok names assignments step before after done
  obtain ⟨same, stored⟩ := assigned before between quiet ran
  obtain ⟨again, kept⟩ := inner between last stored stepped
  refine ⟨?_, restore_stores _ last kept⟩
  have nothing := before.scopes.active.revert_insertAll names [] fun _ none => by cases none
  rw [Context.restore_revert, again, same]
  exact congrArg (fun active => { before.scopes with active := active }) nothing

variable {shell : Shell}

theorem steady_handle (keeps : shell.registry.KeepsScopes shell.host) (name : String)
    (arguments : List String) : Steady (handle shell name arguments) := by
  intro before after quiet done
  obtain ⟨scopes, functions⟩ := shell.registry.run_of_handlers shell.host keeps
    (fun _ _ _ => ⟨rfl, rfl⟩) name arguments before after
    (handle_ok shell name arguments before after done)
  refine ⟨scopes, fun other body here => quiet other body ?_⟩
  rw [← functions]
  exact here

theorem steady_dispatch (keeps : shell.registry.KeepsScopes shell.host) (call : Calling)
    (calls : ∀ name body arguments, Node.Quiet body → Steady (call name body arguments))
    (name : String) (arguments : List String) : Steady (dispatch shell call name arguments) := by
  intro before after quiet done
  unfold dispatch at done
  cases found : before.functions.get? name with
  | some body =>
      simp only [found] at done
      exact calls name body arguments (quiet name body found) before after quiet done
  | none =>
      simp only [found] at done
      exact steady_handle keeps name arguments before after quiet done

theorem quiet_executed (whole part : Node) (quiet : whole.Quiet) (member : part ∈ whole.executed) :
    part.Quiet :=
  fun inner reached => quiet inner (.part whole part member reached)

theorem steady_course (iterations : Nat) (dispatch : Dispatch)
    (dispatched : ∀ name arguments, Steady (dispatch name arguments)) :
    Course (fun steps : Unit → Step => Steady (steps ()))
      (fun steps : Unit → Step => Steady (steps ())) Node.Quiet (fun _ => iterations)
      (fun _ => dispatch) where
  toFlow := steady_control.flow
  word := fun _ _ node _ => steady_reads node.expand
  positional := steady_reads _
  known := fun _ => steady_reads _
  bind := fun _ _ _ _ quiet => by cases quiet _ .self
  setVariable := fun _ _ _ quiet => by cases quiet _ .self
  define := fun _ name body quiet => steady_update _ (fun _ => rfl) fun context stored =>
    context.stores_define Node.Quiet name.text body stored
      (quiet_executed _ body quiet (by simp [Node.executed]))
  malformed := fun _ _ _ _ _ _ _ done => by cases done
  misnamed := fun _ => steady_update _ (fun _ => rfl) fun _ stored => stored
  loop := fun untilTrue condition body checked repeated =>
    steady_control.flow.rounds untilTrue iterations condition body
      (steady_update _ (fun _ => rfl) fun _ stored => stored) checked repeated iterations
  inScope := fun step => steady_inScope (step ())
  callAssigning := fun names assignments step =>
    steady_callAssigning names (assignments ()) (step ())
  dispatched := fun _ name _ _ _ texts => dispatched name.text texts

theorem steady_node (keeps : shell.registry.KeepsScopes shell.host) (call : Calling)
    (calls : ∀ name body arguments, Node.Quiet body → Steady (call name body arguments))
    (whole : Node) (quiet : whole.Quiet) : Steady (node shell call whole) := by
  refine node_of_course (fun _ : Unit => shell) (fun _ => call)
    (steady_course shell.limits.iterations _ (steady_dispatch keeps call calls)) quiet_executed
    ?_ ?_ whole quiet
  · intro whole _ inner condition checked
    exact steady_control.flow.sequence condition (fun _ => node shell call) fun part member =>
      inner part (Node.executed_conditions whole part condition checked member)
  · intro whole _ inner
    exact steady_control.inOrder whole.prefixed (fun _ => node shell call) fun part member =>
      inner part (Node.executed_prefixed whole part member)

theorem steady_called (arguments : List String) (body : Step) (inner : Steady body) :
    Steady (Step.called arguments body) :=
  steady_control.called (steady_reads _) arguments
    (steady_update _ (fun _ => rfl) fun _ stored => stored)
    (fun _ => steady_update _ (fun _ => rfl) fun _ stored => stored) (fun _ => body) inner

theorem steady_call (limits : Limits) (run : Node → Step) (name : String) (body : Node)
    (arguments : List String) (inner : Steady (run body)) :
    Steady (call limits run name body arguments) :=
  call_of_reads limits (fun _ : Unit => run) name body arguments (steady_reads _)
    (steady_update (fun context => (context.addErrors
      [nestingMessage name limits.recursion]).setExitCode 1) (fun _ => rfl)
      fun _ stored => stored) (steady_called arguments _ inner)

theorem steady_calling (room : Nat)
    (inner : ∀ fewer, room = fewer + 1 → ∀ body, Node.Quiet body →
      Steady (shell.within fewer body)) (name : String) (body : Node) (arguments : List String)
    (quiet : body.Quiet) : Steady (calling shell room name body arguments) := by
  cases room with
  | zero => exact steady_call _ _ name body arguments fun _ _ _ done => by cases done
  | succ room => exact steady_call _ _ name body arguments (inner room rfl body quiet)

theorem steady_within (keeps : shell.registry.KeepsScopes shell.host) (room : Nat) (whole : Node)
    (quiet : whole.Quiet) : Steady (shell.within room whole) := by
  induction room using Nat.strongRecOn generalizing whole with
  | ind room ih =>
      rw [within_eq]
      exact steady_node keeps _
        (fun name body arguments => steady_calling room (fun fewer same => ih fewer (by omega))
          name body arguments) whole quiet

theorem call_sheltered (shelters : shell.registry.Shelters shell.host) (name : String)
    (body : Node) (arguments : List String) :
    (shell.call name body arguments).Keeps Context.Sheltered := by
  have handled : ∀ name arguments, (handle shell name arguments).Keeps Context.Sheltered :=
    Conserved.handle shell (shell.registry.run_of_handlers shell.host shelters
      fun _ _ _ => ⟨rfl, rfl⟩)
  exact Context.sheltered_conserved.call _ _
    (Conserved.bodies shell _ fun fewer _ =>
      Context.sheltered_conserved.within shell handled fewer) name body arguments

end Walk

theorem assignments_rolled_back (shell : Shell) (shelters : shell.registry.Shelters shell.host)
    (source : Source) (word body : Node) (arguments assignments : List Node)
    (context after : Context) (found : context.functions.get? word.text = some body)
    (named : ∀ node ∈ assignments, node.assignedName?.isSome)
    (done : shell.walk (.command source (some word) arguments assignments) context = .ok after) :
    ∃ assigned left : Context,
      Step.inOrder (assignments.map shell.walk) context = .ok assigned ∧
      shell.call word.text body (Node.expandAll arguments context) assigned = .ok left ∧
      after = { left with scopes := after.scopes } ∧
      (∀ name ∈ assignments.filterMap Node.assignedName?,
        after.local? name = context.local? name ∧
        after.scopes.get? name = context.scopes.get? name ∧
        (name ≠ "?" → after.lookup name = context.lookup name)) ∧
      (∀ name, name ∉ assignments.filterMap Node.assignedName? →
        after.local? name = left.local? name) ∧
      (left.scopes = assigned.scopes → after.scopes = context.scopes) ∧
      (shell.registry.KeepsScopes shell.host → body.Quiet → context.Stores Node.Quiet →
        after.scopes = context.scopes) := by
  obtain ⟨written, assigned, left, names, put, walked, called, rfl⟩ :=
    shell.walk_assigning source word body arguments assignments context after found named done
  have sheltered : Context.Sheltered context left := by
    have kept := Walk.call_sheltered shelters word.text body _ assigned left called
    rw [put] at kept
    exact ⟨kept.enclosing, kept.positional⟩
  have unwritten : left.scopes = assigned.scopes →
      (Step.restore (Step.saved (assignments.filterMap Node.assignedName?) context) left).scopes =
        context.scopes := by
    intro same
    have reverted := context.scopes.active.revert_insertAll
      (assignments.filterMap Node.assignedName?) written fun name member => names ▸ member
    rw [Context.restore_revert, same, put]
    exact congrArg (fun active => { context.scopes with active := active }) reverted
  refine ⟨assigned, left, walked, called, Context.restore_fields _ left,
    Context.restore_visible _ context left sheltered, ?_, unwritten, ?_⟩
  · intro name absent
    rw [Context.restore_local?, if_neg absent]
  · intro keeps quiet stored
    have steady := Walk.steady_calling shell.limits.recursion
      (fun fewer _ => Walk.steady_within keeps fewer) word.text body
      (Node.expandAll arguments context) quiet
    refine unwritten (steady assigned left ?_ called).1
    rw [put]
    exact stored

theorem Registry.standard_shelters (host : Host) : standard.Shelters host := by
  intro name handler found arguments before after done
  have same := standard_wellBehaved host name handler found arguments before after done
  exact ⟨same.enclosing, same.positional⟩

theorem Registry.standard_keepsScopes (host : Host) : standard.KeepsScopes host := by
  intro name handler found arguments before after done
  obtain ⟨completion, text, finishes⟩ := standard_plain name handler found
  have written : ∀ text, (before.write text).scopes = before.scopes := by
    intro text
    unfold Context.write
    split <;> rfl
  have same := standard_wellBehaved host name handler found arguments before after done
  rw [finishes] at done
  cases done
  exact ⟨written _, same.functions⟩

theorem assignments_rolled_back_twice :
    let start := (Context.start .simulate (.ofList [("X", "0")]) false).pushScope
    let writing := Node.ofGroup [.ofAssignment "X" (.ofWord "3"), .ofAssignment "Y" (.ofWord "4")]
    let call := Node.ofCommand "f" []
      [.ofAssignment "X" (.ofWord "1"), .ofAssignment "X" (.ofVariable "X")]
    (∃ after, (Shell.standard .void).walk call (start.define "f" writing) = .ok after ∧
      after.local? "X" = none ∧ after.lookup "X" = some "0" ∧ after.local? "Y" = some "4") ∧
    ∃ after, (Shell.standard .void).walk call (start.define "f" (.ofCommand "false" [] [])) =
        .ok after ∧ after.exitCode = 1 ∧ after.scopes = start.scopes := by
  intro start writing call
  have rolled := fun body => assignments_rolled_back (Shell.standard .void)
    (Registry.standard_shelters .void) (.ofText "f") (.leaf .commandName (.ofText "f")) body []
    [.ofAssignment "X" (.ofWord "1"), .ofAssignment "X" (.ofVariable "X")]
    (start.define "f" body)
  constructor
  · have finished : ∃ after, (Shell.standard .void).walk call (start.define "f" writing) =
        .ok after := ⟨_, rfl⟩
    obtain ⟨after, done⟩ := finished
    obtain ⟨assigned, left, walked, called, _, restored, kept, _⟩ :=
      rolled writing after rfl (by decide) done
    obtain ⟨bound, _, seen⟩ := restored "X" (by decide)
    refine ⟨after, done, bound, seen (by decide), ?_⟩
    rw [kept "Y" (by decide)]
    cases walked
    cases called
    rfl
  · have finished : ∃ after, (Shell.standard .void).walk call
        (start.define "f" (.ofCommand "false" [] [])) = .ok after ∧ after.exitCode = 1 :=
      ⟨_, rfl, rfl⟩
    obtain ⟨after, done, code⟩ := finished
    obtain ⟨_, _, _, _, _, _, _, _, unwritten⟩ := rolled _ after rfl (by decide) done
    have quiet : (Node.ofCommand "false" [] []).Quiet := by
      intro inner reached
      cases reached with
      | self => rfl
      | part _ part member _ => cases member
    refine ⟨after, done, code, unwritten (Registry.standard_keepsScopes .void) quiet ?_⟩
    exact start.stores_define Node.Quiet "f" _ (fun _ _ none => by cases none) quiet

end ShellWalk
