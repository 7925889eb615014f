import ShellWalk.Node.OfText
import ShellWalk.Proofs.Frame

set_option autoImplicit false

namespace ShellWalk

namespace Node

def mentioned? : Node → Option String
  | .phrase .simpleExpansion _ (name :: _) => some name.text
  | .phrase .expansion _ [name] => if name.isVariableName then some name.text else none
  | _ => none

def Mentions (whole : Node) (name : String) : Prop :=
  ∃ inner, Inside inner whole ∧ inner.mentioned? = some name

theorem mentions_part (whole part : Node) (member : part ∈ whole.parts) (name : String)
    (mentions : part.Mentions name) : whole.Mentions name := by
  obtain ⟨inner, inside, named⟩ := mentions
  exact ⟨inner, .part whole part member inside, named⟩

theorem mentions_self (whole : Node) (name : String) (named : whole.mentioned? = some name) :
    whole.Mentions name :=
  ⟨whole, .self, named⟩

theorem mentions_iff (whole : Node) (name : String) : whole.Mentions name ↔
    whole.mentioned? = some name ∨ ∃ part ∈ whole.parts, part.Mentions name :=
  exists_inside_iff whole

@[simp] theorem mentions_leaf (kind : LeafKind) (source : Source) (name : String) :
    ¬ (Node.leaf kind source).Mentions name := by
  rw [mentions_iff]
  simp [mentioned?, parts]

@[simp] theorem mentions_ofVariable (bound name : String) :
    (ofVariable bound).Mentions name ↔ bound = name := by
  rw [mentions_iff]
  simp [ofVariable, ofName, mentioned?, parts, text, source, Source.ofText]

@[simp] theorem mentions_ofAssignment (bound name : String) (value : Node) :
    (ofAssignment bound value).Mentions name ↔ value.Mentions name := by
  rw [mentions_iff]
  simp [ofAssignment, ofName, mentioned?, parts]

@[simp] theorem mentions_ofCommand (command name : String) (arguments assignments : List Node) :
    (ofCommand command arguments assignments).Mentions name ↔
      ∃ part ∈ arguments ++ assignments, part.Mentions name := by
  rw [mentions_iff]
  simp [ofCommand, mentioned?, parts]

@[simp] theorem mentions_ofGroup (name : String) (children : List Node) :
    (ofGroup children).Mentions name ↔ ∃ child ∈ children, child.Mentions name := by
  rw [mentions_iff]
  simp [ofGroup, mentioned?, parts]

theorem expandJoin_eq (look : String → String) (nodes : List Node) :
    expandJoin look nodes = (nodes.map (expandWith look)).foldr (· ++ ·) "" := by
  induction nodes with
  | nil => rw [expandJoin]; rfl
  | cons node rest ih => rw [expandJoin, ih]; rfl

theorem expandWith_mentions (look other : String → String) (whole : Node)
    (same : ∀ name, whole.Mentions name → look name = other name) :
    whole.expandWith look = whole.expandWith other := by
  induction whole using induction_beneath with
  | step whole ih =>
      have joined : ∀ children : List Node, (∀ child ∈ children, child ∈ whole.parts) →
          expandJoin look children = expandJoin other children := by
        intro children members
        rw [expandJoin_eq, expandJoin_eq]
        congr 1
        apply List.map_congr_left
        intro child member
        exact ih child (beneath_part child whole (members child member)) fun name mentions =>
          same name (mentions_part whole child (members child member) name mentions)
      have here := fun name named => same name (mentions_self whole name named)
      fun_cases expandWith look whole with
      | case1 kind source => rfl
      | case2 source children => rw [expandWith]
      | case3 source name rest => rw [expandWith]; exact here name.text rfl
      | case4 source name plain =>
          rw [expandWith, if_pos plain]
          exact here name.text (by simp [mentioned?, plain])
      | case5 source name literal => rw [expandWith, if_neg literal]
      | case6 source children => rw [expandWith]; exact joined children fun _ member => member
      | case7 whole _ _ _ _ _ => rw [expandWith] <;> assumption

end Node

namespace Context

structure Alike (names : String → Prop) (first second : Context) : Prop where
  fields : second = { first with scopes := second.scopes }
  seen : ∀ name, names name → second.scopes.get? name = first.scopes.get? name

-- No body in the table mentions a name outside `names`, and nothing outside the context is asked.
structure Covered (names : String → Prop) (context : Context) : Prop where
  contained : context.mode ≠ .real
  bodies : ∀ function body, context.functions.get? function = some body →
    ∀ name, body.Mentions name → names name

structure Linked (names : String → Prop) (first second : Context) : Prop where
  covered : first.Covered names
  alike : Alike names first second

variable {names : String → Prop}

theorem lookup_alike (first second : Context) (alike : Alike names first second) (name : String)
    (named : names name) : second.lookup name = first.lookup name := by
  have others : second.special? name = first.special? name := by
    rw [alike.fields]
    rfl
  simp only [lookup, alike.seen name named, others]

theorem linked_setVariable (first second : Context) (linked : Linked names first second)
    (name value : String) :
    Linked names (first.setVariable name value) (second.setVariable name value) := by
  refine ⟨⟨linked.covered.contained, linked.covered.bodies⟩, ⟨?_, ?_⟩⟩
  · rw [linked.alike.fields]
    rfl
  · intro other named
    by_cases same : other = name
    · subst same
      exact (Scopes.get?_set_self _ other value).trans (Scopes.get?_set_self _ other value).symm
    · simp only [setVariable, Scopes.get?_set_other _ _ _ _ same, linked.alike.seen other named]

theorem linked_define (first second : Context) (linked : Linked names first second)
    (name : String) (body : Node) (within : ∀ mention, body.Mentions mention → names mention) :
    Linked names (first.define name body) (second.define name body) := by
  refine ⟨⟨linked.covered.contained, ?_⟩, ⟨?_, linked.alike.seen⟩⟩
  · intro function stored found
    by_cases same : function = name
    · subst same
      have bound := (Table.get?_insert_self first.functions function body).symm.trans found
      cases bound
      exact within
    · exact linked.covered.bodies function stored
        ((Table.get?_insert_other first.functions name function body same).symm.trans found)
  · rw [linked.alike.fields]
    rfl

theorem linked_change (change : Context → Context) (first second : Context)
    (linked : Linked names first second)
    (blind : ∀ context scopes, change { context with scopes := scopes } =
      { change context with scopes := scopes })
    (functions : (change first).functions = first.functions)
    (mode : (change first).mode = first.mode) : Linked names (change first) (change second) := by
  have moved : change second = { change first with scopes := second.scopes } := by
    rw [← blind first second.scopes, ← linked.alike.fields]
  have scopes : (change first).scopes = first.scopes := by
    have same := congrArg Context.scopes (blind first first.scopes)
    exact same
  refine ⟨⟨?_, ?_⟩, ⟨?_, ?_⟩⟩
  · rw [mode]
    exact linked.covered.contained
  · rw [functions]
    exact linked.covered.bodies
  · rw [moved]
  · rw [moved, scopes]
    exact linked.alike.seen

theorem restore_enclosing (bindings : List (String × Option String)) (context : Context) :
    (Step.restore bindings context).scopes.enclosing = context.scopes.enclosing :=
  (framed_conserved.restore bindings context).enclosing

-- Saving looks at the active scope only. A name bound there gets its value back; a name bound
-- further out is unset, and the search goes through to the enclosing scopes, which are as before.
theorem restoreBinding_search (before after : Context) (name : String)
    (below : after.scopes.enclosing = before.scopes.enclosing) :
    (Step.restoreBinding (name, before.local? name) after).scopes.get? name =
      before.scopes.get? name := by
  rw [Scopes.get?_eq before.scopes]
  unfold local?
  cases bound : before.scopes.active.get? name with
  | some value => exact Scopes.get?_set_self after.scopes name value
  | none => exact (Scopes.get?_unset_self after.scopes name).trans (by rw [below, Option.none_or])

theorem restoreBinding_other (context : Context) (name other : String) (value : Option String)
    (different : other ≠ name) :
    (Step.restoreBinding (name, value) context).scopes.get? other = context.scopes.get? other := by
  cases value with
  | some value => exact Scopes.get?_set_other context.scopes name other value different
  | none => exact Scopes.get?_unset_other context.scopes name other different

theorem restore_search (saved : List String) (before after : Context)
    (below : after.scopes.enclosing = before.scopes.enclosing) (name : String) :
    (Step.restore (Step.saved saved before) after).scopes.get? name =
      if name ∈ saved then before.scopes.get? name else after.scopes.get? name := by
  induction saved with
  | nil => rfl
  | cons first rest ih =>
      change (Step.restoreBinding (first, before.local? first)
        (Step.restore (Step.saved rest before) after)).scopes.get? name = _
      by_cases same : name = first
      · subst same
        rw [restoreBinding_search before _ name ((restore_enclosing _ after).trans below)]
        simp
      · rw [restoreBinding_other _ first name _ same, ih]
        simp [same]

theorem linked_restore (saved : List String) (first second after reached : Context)
    (start : Linked names first second) (linked : Linked names after reached)
    (left : after.scopes.enclosing = first.scopes.enclosing)
    (right : reached.scopes.enclosing = second.scopes.enclosing) :
    Linked names (Step.restore (Step.saved saved first) after)
      (Step.restore (Step.saved saved second) reached) := by
  refine ⟨⟨?_, ?_⟩, ⟨?_, ?_⟩⟩
  · rw [restore_fields]
    exact linked.covered.contained
  · rw [restore_fields]
    exact linked.covered.bodies
  · rw [restore_fields _ reached, restore_fields _ after, linked.alike.fields]
  · intro name named
    rw [restore_search saved first after left, restore_search saved second reached right,
      start.alike.seen name named, linked.alike.seen name named]

end Context

def Outcome.Agree (R : Context → Context → Prop) : Outcome → Outcome → Prop
  | .ok first, .ok second => R first second
  | .error first, .error second => first = second
  | _, _ => False

theorem Outcome.agree_mono {R S : Context → Context → Prop} (first second : Outcome)
    (agree : Agree R first second) (weaker : ∀ one other, R one other → S one other) :
    Agree S first second := by
  cases first with
  | error halt =>
      cases second with
      | error halted => exact agree
      | ok after => exact agree.elim
  | ok before =>
      cases second with
      | error halted => exact agree.elim
      | ok after => exact weaker before after agree

theorem Outcome.agree_andThen {R S : Context → Context → Prop} (first first' second second' : Step)
    (one other : Context) (here : Agree R (first one) (first' other))
    (later : ∀ after reached, first one = .ok after → first' other = .ok reached →
      R after reached → Agree S (second after) (second' reached)) :
    Agree S (first.andThen second one) (first'.andThen second' other) := by
  cases left : first one with
  | error halt =>
      cases right : first' other with
      | error halted =>
          rw [left, right] at here
          rw [Step.andThen_of_error _ _ _ _ left, Step.andThen_of_error _ _ _ _ right]
          exact here
      | ok reached =>
          rw [left, right] at here
          exact here.elim
  | ok after =>
      cases right : first' other with
      | error halted =>
          rw [left, right] at here
          exact here.elim
      | ok reached =>
          rw [left, right] at here
          rw [Step.andThen_of_ok _ _ _ _ left, Step.andThen_of_ok _ _ _ _ right]
          exact later after reached left right here

namespace Walk

structure Uninfluenced (names : String → Prop) (step : Step) : Prop where
  framed : step.Keeps Context.Framed
  agree : ∀ first second, Context.Linked names first second →
    Outcome.Agree (Context.Linked names) (step first) (step second)

section Uninfluenced

variable {names : String → Prop}

theorem uninfluenced_update (change : Context → Context)
    (framed : ∀ context, Context.Framed context (change context))
    (linked : ∀ first second, Context.Linked names first second →
      Context.Linked names (change first) (change second)) :
    Uninfluenced names (Step.update change) :=
  ⟨Conserved.update change framed, linked⟩

theorem uninfluenced_change (change : Context → Context)
    (untouched : ∀ context, Context.Untouched context (change context))
    (blind : ∀ context scopes, change { context with scopes := scopes } =
      { change context with scopes := scopes }) : Uninfluenced names (Step.update change) := by
  refine uninfluenced_update change (fun context => (untouched context).framed) ?_
  intro first second linked
  exact Context.linked_change change first second linked blind (untouched first).functions
    (untouched first).mode

theorem uninfluenced_reads {α : Type} (read : Context → α)
    (same : ∀ first second, Context.Linked names first second → read second = read first) :
    Reads (fun steps : Unit → Step => Uninfluenced names (steps ())) read := by
  intro next holds
  refine ⟨fun before => (holds (read before)).framed before, ?_⟩
  intro first second linked
  simp only [same first second linked]
  exact (holds (read first)).agree first second linked

theorem uninfluenced_andThen (first second : Step) (here : Uninfluenced names first)
    (later : Uninfluenced names second) : Uninfluenced names (first.andThen second) := by
  refine ⟨Context.framed_conserved.andThen _ _ here.framed later.framed, ?_⟩
  intro one other linked
  exact Outcome.agree_andThen first first second second one other (here.agree one other linked)
    fun after reached _ _ => later.agree after reached

theorem uninfluenced_control :
    Control fun steps : Unit → Step => Uninfluenced names (steps ()) where
  skip := uninfluenced_update id Context.framed_conserved.refl fun _ _ linked => linked
  andThen := fun first second => uninfluenced_andThen (first ()) (second ())
  succeeded := uninfluenced_reads _ fun first second linked => by rw [linked.alike.fields]; rfl
  stops := uninfluenced_reads _ fun first second linked => by rw [linked.alike.fields]; rfl

theorem uninfluenced_inScope (step : Step) (inner : Uninfluenced names step) :
    Uninfluenced names (Step.inScope step) := by
  refine ⟨Context.framed_conserved.inScope_step step inner.framed, ?_⟩
  intro first second linked
  have pushed : Context.Linked names first.pushScope second.pushScope := by
    refine ⟨⟨linked.covered.contained, linked.covered.bodies⟩, ⟨?_, linked.alike.seen⟩⟩
    rw [linked.alike.fields]
    rfl
  refine Outcome.agree_andThen (fun context => step context.pushScope)
    (fun context => step context.pushScope) Step.leaveScope Step.leaveScope first second
    (inner.agree _ _ pushed) fun after reached ran reran kept => ?_
  -- Both scopes that were pushed are dropped again, and what a search finds is found as before.
  have left := Context.popScope_framed first after (inner.framed _ _ ran)
  have right := Context.popScope_framed second reached (inner.framed _ _ reran)
  simp only [Step.leaveScope, left, right, Context.settle]
  refine ⟨⟨kept.covered.contained, kept.covered.bodies⟩, ⟨?_, linked.alike.seen⟩⟩
  rw [kept.alike.fields]

theorem uninfluenced_called (arguments : List String) (body : Step)
    (inner : Uninfluenced names body) : Uninfluenced names (Step.called arguments body) := by
  refine ⟨Context.framed_conserved.called_step arguments body inner.framed, ?_⟩
  intro first second linked
  have parameters : second.positional = first.positional := by
    rw [linked.alike.fields]
  have entered := Context.linked_change (·.enterCall arguments) first second linked
    (fun _ _ => rfl) rfl rfl
  refine Outcome.agree_andThen (fun context => body (context.enterCall arguments))
    (fun context => body (context.enterCall arguments))
    (Step.update (·.leaveCall first.positional)) (Step.update (·.leaveCall second.positional))
    first second (inner.agree _ _ entered) fun after reached _ _ kept => ?_
  rw [parameters]
  exact Context.linked_change (·.leaveCall first.positional) after reached kept
    (fun _ _ => rfl) rfl rfl

theorem uninfluenced_callAssigning (saved : List String) (assignments : List Step) (step : Step)
    (assigned : Uninfluenced names (Step.inOrder assignments)) (inner : Uninfluenced names step) :
    Uninfluenced names (callAssigning saved assignments step) := by
  have both := uninfluenced_andThen _ _ assigned inner
  refine ⟨Context.framed_conserved.callAssigning_step saved assignments step assigned.framed
    inner.framed, ?_⟩
  intro first second linked
  have split : ∀ context, callAssigning saved assignments step context =
      ((Step.inOrder assignments).andThen step).andThen
        (Step.update (Step.restore (Step.saved saved context))) context := by
    intro context
    unfold callAssigning Step.andThen
    cases Step.inOrder assignments context <;> rfl
  rw [split, split]
  refine Outcome.agree_andThen _ _ _ _ first second (both.agree first second linked)
    fun after reached ran reran kept => ?_
  exact Context.linked_restore saved first second after reached linked kept
    (both.framed _ _ ran).enclosing (both.framed _ _ reran).enclosing

end Uninfluenced

section Standard

variable {names : String → Prop} {host : Host} {limits : Limits}

theorem handle_standard (name : String) (arguments : List String) (mode : Mode)
    (contained : mode ≠ .real) : ∃ completion : Completion, ∀ context : Context,
      context.mode = mode → handle ⟨host, .standard, limits⟩ name arguments context =
        .ok (completion.apply context) := by
  obtain ⟨completion, ran⟩ := Registry.standard_run host name arguments mode contained
  refine ⟨completion, fun context same => ?_⟩
  simp only [handle, ran context same, Context.settle]

theorem uninfluenced_handle (name : String) (arguments : List String) :
    Uninfluenced names (handle ⟨host, .standard, limits⟩ name arguments) := by
  refine ⟨handle_framed _ (Registry.standard_wellBehaved host) name arguments, ?_⟩
  · intro first second linked
    obtain ⟨completion, ran⟩ := handle_standard name arguments first.mode
      linked.covered.contained
    have mode : second.mode = first.mode := by rw [linked.alike.fields]
    rw [ran first rfl, ran second mode]
    exact Context.linked_change completion.apply first second linked (fun _ _ => rfl) rfl rfl

theorem uninfluenced_call (run : Node → Step) (name : String) (body : Node)
    (arguments : List String) (inner : Uninfluenced names (run body)) :
    Uninfluenced names (call limits run name body arguments) :=
  call_of_reads limits (fun _ : Unit => run) name body arguments
    (uninfluenced_reads _ fun first second linked => by rw [linked.alike.fields])
    (uninfluenced_change _ (fun _ => ⟨rfl, rfl, rfl, rfl, rfl, rfl⟩) fun _ _ => rfl)
    (uninfluenced_called arguments _ inner)

theorem uninfluenced_faulty (fault : Fault) :
    Uninfluenced names fun context => .error ⟨fault, context.terminal⟩ := by
  constructor
  · intro before after done
    cases done
  · intro first second linked
    rw [linked.alike.fields]
    rfl

theorem uninfluenced_dispatch (call : Calling)
    (calls : ∀ name body arguments, (∀ mention, body.Mentions mention → names mention) →
      Uninfluenced names (call name body arguments)) (framed : ∀ name body arguments,
      (call name body arguments).Keeps Context.Framed) (name : String) (arguments : List String) :
    Uninfluenced names (dispatch ⟨host, .standard, limits⟩ call name arguments) := by
  constructor
  · exact Conserved.dispatch _ call (handle_framed _ (Registry.standard_wellBehaved host)) framed
      name arguments
  · intro first second linked
    have table : second.functions = first.functions := by rw [linked.alike.fields]
    simp only [dispatch, table]
    cases found : first.functions.get? name with
    | some body =>
        have mentions := linked.covered.bodies name body found
        exact (calls name body arguments mentions).agree first second linked
    | none => exact (uninfluenced_handle name arguments).agree first second linked

theorem uninfluenced_pieces (call : Calling)
    (calls : ∀ name body arguments, (∀ mention, body.Mentions mention → names mention) →
      Uninfluenced names (call name body arguments)) (framed : ∀ name body arguments,
      (call name body arguments).Keeps Context.Framed) :
    Pieces (fun steps : Unit → Step => Uninfluenced names (steps ()))
      (fun node => ∀ mention, node.Mentions mention → names mention)
      (fun _ => limits.iterations) (fun _ => dispatch ⟨host, .standard, limits⟩ call) where
  toControl := uninfluenced_control
  fitPart := fun whole part within member mention mentions =>
    within mention (Node.mentions_part whole part member mention mentions)
  word := by
    intro node within
    refine uninfluenced_reads _ fun first second linked => ?_
    refine Node.expandWith_mentions _ _ node fun name mentions => ?_
    simp only [Context.lookupD, Context.lookup_alike first second linked.alike name
      (within name mentions)]
  positional := uninfluenced_reads _ fun first second linked => by rw [linked.alike.fields]
  known := fun name => uninfluenced_reads _ fun first second linked => by rw [linked.alike.fields]
  setVariable := fun name value => uninfluenced_update _
    (fun context => Context.framed_conserved.setVariable context name value)
    fun first second linked => Context.linked_setVariable first second linked name value
  define := fun name body within => uninfluenced_update _
    (fun context => Context.framed_conserved.define context name body)
    fun first second linked => Context.linked_define first second linked name body within
  malformed := fun node missing => uninfluenced_faulty (.malformed (.at node missing))
  misnamed := fun _ =>
    uninfluenced_change _ (fun _ => ⟨rfl, rfl, rfl, rfl, rfl, rfl⟩) fun _ _ => rfl
  loop := fun untilTrue condition body checked repeated =>
    uninfluenced_control.flow.rounds untilTrue _ condition body
      (uninfluenced_change _ (fun _ => ⟨rfl, rfl, rfl, rfl, rfl, rfl⟩) fun _ _ => rfl)
      checked repeated _
  inScope := fun step inner => uninfluenced_inScope (step ()) inner
  callAssigning := fun saved assignments step assigned inner =>
    uninfluenced_callAssigning saved (assignments ()) (step ()) assigned inner
  dispatched := uninfluenced_dispatch call calls framed

theorem uninfluenced_within (host : Host) (limits : Limits) (room : Nat) (whole : Node)
    (covered : ∀ mention, whole.Mentions mention → names mention) :
    Uninfluenced names (Shell.within ⟨host, .standard, limits⟩ room whole) := by
  have framed := within_framed ⟨host, .standard, limits⟩ (Registry.standard_wellBehaved host)
  induction room using Nat.strongRecOn generalizing whole with
  | ind room ih =>
      have inner : ∀ body : Node, (∀ mention, body.Mentions mention → names mention) →
          Uninfluenced names (bodies ⟨host, .standard, limits⟩ room body) := by
        intro body mentions
        cases room with
        | zero => exact uninfluenced_faulty (.panicked overflowMessage)
        | succ room => exact ih room (Nat.lt_succ_self room) body mentions
      rw [within_eq]
      exact node_of_pieces (fun _ : Unit => ⟨host, .standard, limits⟩) _
        (uninfluenced_pieces _
          (fun name body arguments mentions =>
            uninfluenced_call _ name body arguments (inner body mentions))
          (Context.framed_conserved.call limits _
            (Conserved.bodies ⟨host, .standard, limits⟩ room fun fewer _ => framed fewer)))
        whole covered

end Standard

end Walk

def Node.Referenced (node : Node) (context : Context) (name : String) : Prop :=
  node.Mentions name ∨
  ∃ function body, context.functions.get? function = some body ∧ body.Mentions name

structure Context.SameEffects (first second : Context) : Prop where
  output : second.output = first.output
  errors : second.errors = first.errors
  exitCode : second.exitCode = first.exitCode
  functions : second.functions = first.functions

theorem Context.Alike.sameEffects {names : String → Prop} (first second : Context)
    (alike : Alike names first second) : SameEffects first second := by
  constructor <;> rw [alike.fields]

theorem Shell.walk_alike (host : Host) (limits : Limits) (node : Node) (first second : Context)
    (contained : first.mode ≠ .real) (alike : Context.Alike (node.Referenced first) first second) :
    Outcome.Agree (Context.Alike (node.Referenced first))
      (Shell.walk ⟨host, .standard, limits⟩ node first)
      (Shell.walk ⟨host, .standard, limits⟩ node second) := by
  have linked : Context.Linked (node.Referenced first) first second := by
    refine ⟨⟨contained, ?_⟩, alike⟩
    intro function body found name mentions
    exact .inr ⟨function, body, found, mentions⟩
  have walked : Walk.Uninfluenced (node.Referenced first)
      (Shell.walk ⟨host, .standard, limits⟩ node) :=
    Walk.uninfluenced_within host limits _ node fun _ mentions => .inl mentions
  exact Outcome.agree_mono _ _ (walked.agree first second linked) fun _ _ kept => kept.alike

theorem Shell.walk_subshell (host : Host) (limits : Limits) (outer inner : Source)
    (children : List Node) (context : Context) (contained : context.mode ≠ .real) :
    Outcome.Agree Context.SameEffects
      (Shell.walk ⟨host, .standard, limits⟩ (.subshell outer children) context)
      (Shell.walk ⟨host, .standard, limits⟩ (.group .compound inner children) context) := by
  have pushed : Context.Linked (fun _ => True) context.pushScope context :=
    ⟨⟨contained, fun _ _ _ _ _ => trivial⟩,
      ⟨rfl, fun name _ => (Scopes.get?_push context.scopes name).symm⟩⟩
  have group : Walk.Uninfluenced (fun _ => True)
      (Shell.within ⟨host, .standard, limits⟩ limits.recursion (.group .compound inner children)) :=
    Walk.uninfluenced_within host limits _ _ fun _ _ => trivial
  unfold Shell.walk
  rw [Walk.within_subshell _ _ .compound outer inner]
  generalize Shell.within ⟨host, .standard, limits⟩ limits.recursion
    (.group .compound inner children) = step at group ⊢
  rw [show step context = step.andThen Step.skip context by rw [Step.andThen_skip]]
  refine Outcome.agree_andThen (fun context => step context.pushScope) step Step.leaveScope
    Step.skip context context (group.agree _ _ pushed) fun after reached ran _ kept => ?_
  have popped := Context.popScope_framed context after (group.framed _ _ ran)
  simp only [Step.leaveScope, popped, Context.settle]
  have same := kept.alike.sameEffects
  exact ⟨same.output, same.errors, same.exitCode, same.functions⟩

theorem walk_noninterference (host : Host) (limits : Limits) :
    (∀ (node : Node) (first second : Context), first.mode ≠ .real →
      second = { first with scopes := second.scopes } →
      (∀ name, node.Referenced first name → second.scopes.get? name = first.scopes.get? name) →
      Outcome.Agree (Context.Alike (node.Referenced first))
        (Shell.walk ⟨host, .standard, limits⟩ node first)
        (Shell.walk ⟨host, .standard, limits⟩ node second)) ∧
    (∀ (node : Node) (context : Context) (name value : String), context.mode ≠ .real →
      ¬ node.Referenced context name →
      Outcome.Agree Context.SameEffects
        (Shell.walk ⟨host, .standard, limits⟩ node context)
        (Shell.walk ⟨host, .standard, limits⟩ node (context.setVariable name value))) ∧
    (∀ (outer inner : Source) (children : List Node) (context : Context), context.mode ≠ .real →
      Outcome.Agree Context.SameEffects
        (Shell.walk ⟨host, .standard, limits⟩ (.subshell outer children) context)
        (Shell.walk ⟨host, .standard, limits⟩ (.group .compound inner children) context)) := by
  refine ⟨?_, ?_, Shell.walk_subshell host limits⟩
  · intro node first second contained fields seen
    exact Shell.walk_alike host limits node first second contained ⟨fields, seen⟩
  · intro node context name value contained unmentioned
    have alike : Context.Alike (node.Referenced context) context
        (context.setVariable name value) := by
      refine ⟨rfl, fun other mentioned => ?_⟩
      have different : other ≠ name := by
        rintro rfl
        exact unmentioned mentioned
      exact Scopes.get?_set_other context.scopes name other value different
    exact Outcome.agree_mono _ _ (Shell.walk_alike host limits node context _ contained alike)
      fun one other kept => kept.sameEffects

-- The name is bound in the active scope of one context and further out in the other, so that the
-- call takes its assignment back in two different ways.
theorem walk_noninterference_assigned :
    let body := Node.ofCommand "echo" [.ofVariable "X"] []
    let node := Node.ofGroup [.ofCommand "f" [] [.ofAssignment "X" (.ofWord "2")], body]
    let start := (Context.start .capture .empty false).define "f" body
    let inner : Context := { start with scopes := ⟨.ofList [("X", "1")], []⟩ }
    let outer : Context := { start with scopes := ⟨.empty, [.ofList [("X", "1")]]⟩ }
    let walk := (Shell.standard .void).walk
    ∃ first second other alone,
      walk node inner = .ok first ∧ first.output = ["2", "1"] ∧ first.exitCode = 0 ∧
      walk node outer = .ok second ∧ Context.Alike (node.Referenced inner) first second ∧
      walk node (inner.setVariable "Y" "3") = .ok other ∧ Context.SameEffects first other ∧
      walk (.ofSubshell [node]) inner = .ok alone ∧ Context.SameEffects alone first := by
  intro body node start inner outer walk
  obtain ⟨alike, unmentioned, grouped⟩ := walk_noninterference .void .standard
  have finished : ∃ first, walk node inner = .ok first ∧ first.output = ["2", "1"] ∧
      first.exitCode = 0 := ⟨_, rfl, by decide +kernel, rfl⟩
  have rest : ∃ second other alone, walk node outer = .ok second ∧
      walk node (inner.setVariable "Y" "3") = .ok other ∧
      walk (.ofSubshell [node]) inner = .ok alone := ⟨_, _, _, rfl, rfl, rfl⟩
  obtain ⟨first, done, output, exitCode⟩ := finished
  obtain ⟨second, other, alone, outside, shifted, apart⟩ := rest
  have gathered : walk (.ofGroup [node]) inner = .ok first :=
    (congrFun (Step.sequence_single (walk node)) inner).trans done
  refine ⟨first, second, other, alone, done, output, exitCode, outside, ?_, shifted, ?_, apart, ?_⟩
  · have agree : Outcome.Agree (Context.Alike (node.Referenced inner)) (walk node inner)
        (walk node outer) := alike node inner outer (by decide) rfl fun name _ => rfl
    rwa [done, outside] at agree
  · suffices agree : Outcome.Agree Context.SameEffects (walk node inner)
        (walk node (inner.setVariable "Y" "3")) by rwa [done, shifted] at agree
    refine unmentioned node inner "Y" "3" (by decide) ?_
    rintro (here | ⟨function, stored, found, there⟩)
    · simp [node, body, Node.ofWord] at here
    · by_cases same : function = "f"
      · subst same
        cases found
        simp [body] at there
      · rw [show inner.functions.get? function = none from
          Table.get?_insert_other .empty "f" function body same] at found
        cases found
  · have agree : Outcome.Agree Context.SameEffects (walk (.ofSubshell [node]) inner)
        (walk (.ofGroup [node]) inner) := grouped (.ofText "") (.ofText "") [node] inner (by decide)
    rwa [apart, gathered] at agree

end ShellWalk
