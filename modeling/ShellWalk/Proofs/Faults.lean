import ShellWalk.Proofs.Termination

set_option autoImplicit false

namespace ShellWalk

inductive Node.Reaches (inner : Node) : Node → Prop where
  | self : Reaches inner inner
  | part (whole part : Node) (member : part ∈ whole.executed) (deeper : Reaches inner part) :
      Reaches inner whole

def Node.Visits (node : Node) (context : Context) (inner : Node) : Prop :=
  inner.Reaches node ∨
  ∃ name body, context.functions.get? name = some body ∧ inner.Reaches body

def Node.Complete (node : Node) : Prop :=
  ∀ inner : Node, inner.Reaches node → ∀ missing, ¬ inner.Lacks missing

theorem Node.complete_of_parts (whole : Node) (here : ∀ missing, ¬ whole.Lacks missing)
    (parts : ∀ part ∈ whole.executed, part.Complete) : whole.Complete := by
  intro inner reached
  cases reached with
  | self => exact here
  | part _ part member deeper => exact parts part member inner deeper

theorem Node.complete_ofCommand (name : String) (arguments : List Node) :
    (Node.ofCommand name arguments []).Complete :=
  complete_of_parts _ (fun _ lacks => by cases lacks) fun _ member => by cases member

theorem Node.complete_ofFunction (name : String) (body : Node) (complete : body.Complete) :
    (Node.ofFunction name body).Complete :=
  complete_of_parts _ (fun _ lacks => by cases lacks) (List.forall_mem_singleton.mpr complete)

theorem Node.complete_ofGroup (children : List Node)
    (complete : ∀ child ∈ children, child.Complete) : (Node.ofGroup children).Complete :=
  complete_of_parts _ (fun _ lacks => by cases lacks) complete

theorem Node.complete_ofSubshell (children : List Node)
    (complete : ∀ child ∈ children, child.Complete) : (Node.ofSubshell children).Complete :=
  complete_of_parts _ (fun _ lacks => by cases lacks) complete

def Registry.Returns (registry : Registry) (host : Host) : Prop :=
  ∀ name handler, registry.handlers.get? name = some handler →
    ∀ arguments before, ∃ after, handler host name arguments before = .ok after ∧
      after.functions = before.functions

namespace Context

def Stores (bodies : Node → Prop) (context : Context) : Prop :=
  ∀ name body, context.functions.get? name = some body → bodies body

theorem stores_define (bodies : Node → Prop) (context : Context) (name : String) (body : Node)
    (stored : context.Stores bodies) (fits : bodies body) :
    (context.define name body).Stores bodies := by
  intro other found here
  rcases Table.get?_insert_or context.functions name other body found here with ⟨_, rfl⟩ | before
  · exact fits
  · exact stored other found before

structure SameStack (before after : Context) : Prop where
  enclosing : after.scopes.enclosing = before.scopes.enclosing
  callDepth : after.callDepth = before.callDepth

theorem sameStack_conserved : Conserved SameStack where
  refl := fun _ => ⟨rfl, rfl⟩
  trans := fun _ _ _ first second =>
    ⟨second.enclosing.trans first.enclosing, second.callDepth.trans first.callDepth⟩
  setVariable := fun _ _ _ => ⟨rfl, rfl⟩
  unsetVariable := fun _ _ => ⟨rfl, rfl⟩
  define := fun _ _ _ => ⟨rfl, rfl⟩
  addErrors := fun _ _ => ⟨rfl, rfl⟩
  setExitCode := fun _ _ => ⟨rfl, rfl⟩
  inScope := by
    intro context after popped inner done
    rw [popScope_below context after inner.enclosing] at done
    cases done
    exact ⟨rfl, inner.callDepth⟩
  called := fun context arguments after inner =>
    ⟨inner.enclosing, Walk.depth_conserved.called context arguments after inner.callDepth⟩

end Context

namespace Registry

theorem run_returns (registry : Registry) (host : Host) (returns : registry.Returns host)
    (name : String) (arguments : List String) (before : Context) :
    ∃ after, registry.run host name arguments before = .ok after ∧
      after.functions = before.functions := by
  unfold run
  cases found : registry.handlers.get? name with
  | some handler => exact returns name handler found arguments before
  | none => exact ⟨_, rfl, (fallback_untouched host name arguments before).functions⟩

theorem standard_handlers_return (host : Host) : standard.Returns host := by
  intro name handler found arguments before
  obtain ⟨after, returned, same⟩ := standard_returns host name handler found arguments before
  exact ⟨after, returned, same.functions⟩

def KeepsStack (registry : Registry) (host : Host) : Prop :=
  ∀ name handler, registry.handlers.get? name = some handler →
    ∀ arguments before after, handler host name arguments before = .ok after →
      Context.SameStack before after

theorem WellBehaved.keepsStack (registry : Registry) (host : Host)
    (behaved : registry.WellBehaved host) : registry.KeepsStack host := by
  intro name handler found arguments before after done
  have same := behaved name handler found arguments before after done
  exact ⟨same.enclosing, same.callDepth⟩

theorem standard_keepsStack (host : Host) : standard.KeepsStack host :=
  WellBehaved.keepsStack standard host (standard_wellBehaved host)

end Registry

def Outcome.Sound (bodies : Node → Prop) (allowed : Fault → Prop) : Outcome → Prop
  | .ok after => after.Stores bodies
  | .error halt => allowed halt.fault

theorem Outcome.sound_andThen {bodies : Node → Prop} {allowed : Fault → Prop} (first second : Step)
    (before : Context) (here : Sound bodies allowed (first before))
    (later : ∀ after, first before = .ok after → after.Stores bodies →
      Sound bodies allowed (second after)) :
    Sound bodies allowed (first.andThen second before) := by
  cases ran : first before with
  | error halt =>
      rw [ran] at here
      rw [Step.andThen_of_error _ _ _ _ ran]
      exact here
  | ok after =>
      rw [ran] at here
      rw [Step.andThen_of_ok _ _ _ _ ran]
      exact later after ran here

namespace Walk

-- To leave a scope is a fault only when what ran in it took scopes away, and there is room for all
-- calls as long as the depth stands at `least`. With `loose` handlers neither is to be relied upon.
structure Traced (bodies : Node → Prop) (allowed : Fault → Prop) (loose : Prop) (least : Nat)
    (step : Step) : Prop where
  stacked : ¬ loose → step.Keeps Context.SameStack
  sound : ∀ before, before.Stores bodies → (¬ loose → least ≤ before.callDepth) →
    Outcome.Sound bodies allowed (step before)

section Traced

variable {bodies : Node → Prop} {allowed : Fault → Prop} {loose : Prop} {least : Nat}

theorem traced_update (change : Context → Context)
    (stacked : ∀ context, Context.SameStack context (change context))
    (stored : ∀ context, context.Stores bodies → (change context).Stores bodies) :
    Traced bodies allowed loose least (Step.update change) :=
  ⟨fun _ => Conserved.update change stacked, fun context kept _ => stored context kept⟩

theorem traced_reads {α : Type} (read : Context → α) :
    Reads (fun steps : Unit → Step => Traced bodies allowed loose least (steps ())) read := by
  intro next holds
  exact ⟨fun strict before => (holds (read before)).stacked strict before,
    fun before => (holds (read before)).sound before⟩

theorem traced_andThen (first second : Step) (here : Traced bodies allowed loose least first)
    (later : Traced bodies allowed loose least second) :
    Traced bodies allowed loose least (first.andThen second) := by
  constructor
  · intro strict
    exact Context.sameStack_conserved.andThen _ _ (here.stacked strict) (later.stacked strict)
  · intro before kept deep
    refine Outcome.sound_andThen first second before (here.sound before kept deep)
      fun after ran stored => later.sound after stored fun strict => ?_
    rw [(here.stacked strict before after ran).callDepth]
    exact deep strict

theorem traced_control :
    Control fun steps : Unit → Step => Traced bodies allowed loose least (steps ()) where
  skip := traced_update id Context.sameStack_conserved.refl fun _ kept => kept
  andThen := fun first second => traced_andThen (first ()) (second ())
  succeeded := traced_reads _
  stops := traced_reads _

-- The end of a scope is the one place where the walk itself can break down.
theorem traced_inScope (tolerated : loose → allowed (.panicked Context.baseScopeMessage))
    (step : Step) (inner : Traced bodies allowed loose least step) :
    Traced bodies allowed loose least (Step.inScope step) := by
  refine ⟨fun strict => Context.sameStack_conserved.inScope_step step (inner.stacked strict), ?_⟩
  intro before kept deep
  refine Outcome.sound_andThen (fun context => step context.pushScope) Step.leaveScope before
    (inner.sound before.pushScope kept deep) fun last ran stored => ?_
  by_cases strict : loose
  · unfold Step.leaveScope Context.popScope
    cases last.scopes.pop? with
    | none => exact tolerated strict
    | some scopes => exact stored
  · have below := (inner.stacked strict _ _ ran).enclosing
    simp only [Step.leaveScope, Context.popScope_below before last below, Context.settle]
    exact stored

theorem traced_called (arguments : List String) (body : Step)
    (inner : Traced bodies allowed loose (least + 1) body) :
    Traced bodies allowed loose least (Step.called arguments body) := by
  refine ⟨fun strict =>
    Context.sameStack_conserved.called_step arguments body (inner.stacked strict), ?_⟩
  intro before kept deep
  exact Outcome.sound_andThen (fun context => body (context.enterCall arguments))
    (Step.update (·.leaveCall before.positional)) before
    (inner.sound (before.enterCall arguments) kept fun strict => Nat.succ_le_succ (deep strict))
    fun _ _ stored => stored

theorem restore_stores (bindings : List (String × Option String)) (context : Context)
    (stored : context.Stores bodies) : (Step.restore bindings context).Stores bodies := by
  induction bindings with
  | nil => exact stored
  | cons binding rest ih =>
      rcases binding with ⟨name, value⟩
      cases value <;> exact ih

structure Grounds (shell : Shell) (bodies : Node → Prop) (allowed : Fault → Prop) (loose : Prop) :
    Prop where
  returns : shell.registry.Returns shell.host
  stacked : ¬ loose → shell.registry.KeepsStack shell.host
  unscoped : loose → allowed (.panicked Context.baseScopeMessage)
  overflown : loose → allowed (.panicked overflowMessage)
  closed : ∀ whole part, bodies whole → part ∈ whole.executed → bodies part
  lacking : ∀ node missing, bodies node → node.Lacks missing →
    allowed (.malformed (.at node missing))

variable {shell : Shell}

theorem handle_stacked (keeps : shell.registry.KeepsStack shell.host) (name : String)
    (arguments : List String) : (handle shell name arguments).Keeps Context.SameStack := by
  refine Conserved.handle shell (shell.registry.run_of_handlers shell.host keeps
    fun name arguments before => ?_) name arguments
  have same := Registry.fallback_untouched shell.host name arguments before
  exact ⟨same.enclosing, same.callDepth⟩

theorem within_stacked (keeps : shell.registry.KeepsStack shell.host) (room : Nat) (node : Node) :
    (shell.within room node).Keeps Context.SameStack :=
  Context.sameStack_conserved.within shell (handle_stacked keeps) room node

theorem calling_stacked (keeps : shell.registry.KeepsStack shell.host) (room : Nat) (name : String)
    (body : Node) (arguments : List String) :
    (calling shell room name body arguments).Keeps Context.SameStack :=
  Context.sameStack_conserved.call _ _
    (Conserved.bodies shell room fun fewer _ => within_stacked keeps fewer) name body arguments

theorem traced_handle (grounds : Grounds shell bodies allowed loose) (name : String)
    (arguments : List String) :
    Traced bodies allowed loose least (handle shell name arguments) := by
  refine ⟨fun strict => handle_stacked (grounds.stacked strict) name arguments, ?_⟩
  intro before stored _
  obtain ⟨after, ran, same⟩ :=
    shell.registry.run_returns shell.host grounds.returns name arguments before
  simp only [handle, ran, Context.settle]
  change after.Stores bodies
  simpa only [Context.Stores, same] using stored

-- When the room is used up, the depth has come to the limit and the call is refused before.
theorem traced_calling (grounds : Grounds shell bodies allowed loose) (room : Nat)
    (fits : shell.limits.recursion ≤ least + room) (name : String) (body : Node)
    (arguments : List String)
    (inner : ∀ fewer, room = fewer + 1 →
      Traced bodies allowed loose (least + 1) (shell.within fewer body)) :
    Traced bodies allowed loose least (calling shell room name body arguments) := by
  have refused : Traced bodies allowed loose least (refuse shell.limits name body arguments) :=
    traced_update _ (fun _ => ⟨rfl, rfl⟩) fun _ stored => stored
  cases room with
  | succ room =>
      exact call_of_reads shell.limits (fun _ : Unit => shell.within room) name body arguments
        (traced_reads _) refused (traced_called arguments _ (inner room rfl))
  | zero =>
      refine ⟨fun strict => calling_stacked (grounds.stacked strict) 0 name body arguments, ?_⟩
      intro before stored deep
      by_cases limit : shell.limits.recursion ≤ before.callDepth
      · simp only [calling, call, if_pos limit]
        exact refused.sound before stored deep
      · simp only [calling, call, if_neg limit]
        refine grounds.overflown (Classical.not_not.mp fun strict => ?_)
        have depth := deep strict
        omega

theorem traced_dispatch (grounds : Grounds shell bodies allowed loose) (room : Nat)
    (calls : ∀ name body arguments, bodies body →
      Traced bodies allowed loose least (calling shell room name body arguments)) (name : String)
    (arguments : List String) :
    Traced bodies allowed loose least (dispatch shell (calling shell room) name arguments) := by
  constructor
  · intro strict
    exact Conserved.dispatch shell _ (handle_stacked (grounds.stacked strict))
      (calling_stacked (grounds.stacked strict) room) name arguments
  · intro before stored deep
    unfold dispatch
    cases found : before.functions.get? name with
    | some body =>
        exact (calls name body arguments (stored name body found)).sound before stored deep
    | none => exact (traced_handle grounds name arguments).sound before stored deep

theorem traced_course (grounds : Grounds shell bodies allowed loose) (dispatch : Dispatch)
    (dispatched : ∀ name arguments, Traced bodies allowed loose least (dispatch name arguments)) :
    Course (fun steps : Unit → Step => Traced bodies allowed loose least (steps ()))
      (fun steps : Unit → Step => Traced bodies allowed loose least (steps ())) bodies
      (fun _ => shell.limits.iterations) (fun _ => dispatch) where
  toFlow := traced_control.flow
  word := fun _ _ node _ => traced_reads node.expand
  positional := traced_reads _
  known := fun _ => traced_reads _
  bind := fun _ _ _ _ _ _ => traced_update _ (fun _ => ⟨rfl, rfl⟩) fun _ stored => stored
  setVariable := fun _ _ _ _ _ => traced_update _ (fun _ => ⟨rfl, rfl⟩) fun _ stored => stored
  define := fun source name body covered => traced_update _ (fun _ => ⟨rfl, rfl⟩)
    fun context stored => context.stores_define bodies name.text body stored
      (grounds.closed _ body covered (by simp [Node.executed]))
  malformed := fun node missing covered lacks =>
    ⟨fun _ _ _ done => (by cases done), fun _ _ _ => grounds.lacking node missing covered lacks⟩
  misnamed := fun _ => traced_update _ (fun _ => ⟨rfl, rfl⟩) fun _ stored => stored
  loop := fun untilTrue condition body checked repeated =>
    traced_control.flow.rounds untilTrue _ condition body
      (traced_update _ (fun _ => ⟨rfl, rfl⟩) fun _ stored => stored) checked repeated _
  inScope := fun step inner => traced_inScope grounds.unscoped (step ()) inner
  callAssigning := fun names => callAssigning_of_control traced_control names (traced_reads _)
    fun bindings => traced_update _
      (fun context => Context.sameStack_conserved.restore bindings context)
      (restore_stores bindings)
  dispatched := fun _ name _ _ _ texts => dispatched name.text texts

theorem traced_within (grounds : Grounds shell bodies allowed loose) (room : Nat)
    (fits : shell.limits.recursion ≤ least + room) (whole : Node) (covered : bodies whole) :
    Traced bodies allowed loose least (shell.within room whole) := by
  induction room using Nat.strongRecOn generalizing least whole with
  | ind room ih =>
      have calls : ∀ name body arguments, bodies body →
          Traced bodies allowed loose least (calling shell room name body arguments) := by
        intro name body arguments fit
        refine traced_calling grounds room fits name body arguments fun fewer same => ?_
        exact ih fewer (by omega) (by omega) body fit
      rw [within_eq]
      refine node_of_course (fun _ : Unit => shell) (fun _ => calling shell room)
        (traced_course grounds _ (traced_dispatch grounds room calls)) grounds.closed ?_ ?_
        whole covered
      · intro whole _ inner condition checked
        exact traced_control.flow.sequence condition (fun _ => node shell (calling shell room))
          fun part member =>
            inner part (Node.executed_conditions whole part condition checked member)
      · intro whole _ inner
        exact traced_control.inOrder whole.prefixed (fun _ => node shell (calling shell room))
          fun part member => inner part (Node.executed_prefixed whole part member)

theorem traced_walk (grounds : Grounds shell bodies allowed loose) (node : Node)
    (covered : bodies node) : Traced bodies allowed loose 0 (shell.walk node) :=
  traced_within grounds shell.limits.recursion (Nat.le_add_left ..) node covered

end Traced

end Walk

namespace Shell

def Blamed (node : Node) (context : Context) (fault : Fault) : Prop :=
  ∃ culprit missing, node.Visits context culprit ∧ culprit.Lacks missing ∧
    fault = .malformed (.at culprit missing)

theorem run_blamed (program : Node) (options : Options) (fault : Fault)
    (blamed : Blamed program options.start fault) :
    ∃ (culprit : Node) (missing : Missing), culprit.Reaches program ∧ culprit.Lacks missing := by
  obtain ⟨culprit, missing, visited, lacks, _⟩ := blamed
  rcases visited with reached | ⟨name, body, found, _⟩
  · exact ⟨culprit, missing, reached, lacks⟩
  · cases found

variable (shell : Shell) (returns : shell.registry.Returns shell.host) (node : Node)
  (context : Context)

include returns

theorem grounds_visited (others : Fault → Prop) (loose : Prop)
    (stacked : ¬ loose → shell.registry.KeepsStack shell.host)
    (unscoped : loose → others (.panicked Context.baseScopeMessage))
    (overflown : loose → others (.panicked Walk.overflowMessage)) :
    Walk.Grounds shell (fun body => ∀ inner, inner.Reaches body → node.Visits context inner)
      (fun fault => Blamed node context fault ∨ others fault) loose where
  returns := returns
  stacked := stacked
  unscoped := fun strange => .inr (unscoped strange)
  overflown := fun strange => .inr (overflown strange)
  closed := fun whole part visited member inner reached =>
    visited inner (.part whole part member reached)
  lacking := fun culprit missing visited lacks =>
    .inl ⟨culprit, missing, visited culprit .self, lacks, rfl⟩

theorem within_fault (room : Nat) (halt : Halt)
    (failed : shell.within room node context = .error halt) :
    Blamed node context halt.fault ∨ halt.fault = .panicked Context.baseScopeMessage ∨
      halt.fault = .panicked Walk.overflowMessage := by
  have grounds := shell.grounds_visited returns node context
    (fun fault => fault = .panicked Context.baseScopeMessage ∨
      fault = .panicked Walk.overflowMessage) True (fun strict => absurd trivial strict)
    (fun _ => .inl rfl) fun _ => .inr rfl
  have traced := Walk.traced_within grounds room (Nat.le_add_right shell.limits.recursion room) node
    fun inner reached => .inl reached
  have sound := traced.sound context
    (fun name body found inner reached => .inr ⟨name, body, found, reached⟩)
    fun strict => absurd trivial strict
  rw [failed] at sound
  exact sound

theorem walk_blamed (keeps : shell.registry.KeepsStack shell.host) (halt : Halt)
    (failed : shell.walk node context = .error halt) : Blamed node context halt.fault := by
  have grounds := shell.grounds_visited returns node context (fun _ => False) False
    (fun _ => keeps) id id
  have sound := (Walk.traced_walk grounds node fun inner reached => .inl reached).sound context
    (fun name body found inner reached => .inr ⟨name, body, found, reached⟩)
    fun _ => Nat.zero_le _
  rw [failed] at sound
  exact sound.resolve_right id

end Shell

theorem fault_provenance (shell : Shell) (returns : shell.registry.Returns shell.host) :
    (∀ room node context detail terminal,
      shell.within room node context = .error ⟨.malformed detail, terminal⟩ →
      ∃ culprit missing, node.Visits context culprit ∧ culprit.Lacks missing ∧
        detail = .at culprit missing) ∧
    ∀ program options, (∀ (culprit : Node) (missing : Missing), culprit.Reaches program →
      ¬ culprit.Lacks missing) →
      (∀ room halt, shell.within room program (Options.start options) = .error halt →
        halt.fault = .panicked Context.baseScopeMessage ∨
          halt.fault = .panicked Walk.overflowMessage) ∧
      (shell.registry.KeepsStack shell.host →
        ∃ result, shell.run program options = .ok result) := by
  constructor
  · intro room node context detail terminal failed
    rcases shell.within_fault returns node context room _ failed with blamed | strange | strange
    · obtain ⟨culprit, missing, visited, lacks, same⟩ := blamed
      cases same
      exact ⟨culprit, missing, visited, lacks, rfl⟩
    · cases strange
    · cases strange
  · intro program options complete
    have blameless : ∀ fault, ¬ Shell.Blamed program options.start fault := by
      intro fault blamed
      obtain ⟨culprit, missing, reached, lacks⟩ := Shell.run_blamed program options fault blamed
      exact complete culprit missing reached lacks
    constructor
    · intro room halt failed
      exact (shell.within_fault returns program options.start room halt failed).resolve_left
        (blameless halt.fault)
    · intro keeps
      cases ran : shell.run program options with
      | ok result => exact ⟨result, rfl⟩
      | error halt =>
          exact absurd (shell.walk_blamed returns program options.start keeps halt ran)
            (blameless halt.fault)

theorem fault_provenance_called :
    let nameless := Node.command (.ofText "") none [] []
    let called := Node.ofGroup [.ofFunction "f" nameless, .ofCommand "f" [] []]
    let expanded := Node.ofGroup [.ofCommand "echo" [nameless] []]
    (∃ culprit missing, called.Visits Options.standard.start culprit ∧ culprit.Lacks missing ∧
      (Shell.standard .void).run called .standard =
        .error ⟨.malformed (.at culprit missing), ""⟩) ∧
    ∃ result, (Shell.standard .void).run expanded .standard = .ok result := by
  intro nameless called expanded
  obtain ⟨blamed, complete⟩ := fault_provenance (Shell.standard .void)
    (Registry.standard_handlers_return .void)
  constructor
  · have failed : (Shell.standard .void).run called .standard =
        .error ⟨.malformed (.at nameless .commandName), ""⟩ := rfl
    obtain ⟨culprit, missing, visited, lacks, same⟩ :=
      blamed 100 called Options.standard.start _ _ failed
    exact ⟨culprit, missing, visited, lacks, same ▸ failed⟩
  · have lacking : expanded.Complete := Node.complete_ofGroup _
      (List.forall_mem_singleton.mpr (Node.complete_ofCommand "echo" [nameless]))
    exact (complete expanded .standard fun culprit missing reached =>
      lacking culprit reached missing).2 (Registry.standard_keepsStack .void)

-- The handler takes a scope away wherever there is one below, and never breaks down itself; what
-- does is the end of the subshell.
theorem scope_dropped_in_subshell :
    let drop : Handler := fun _ _ _ context =>
      if 1 < context.scopes.depth then context.popScope else .ok context
    let shell : Shell := ⟨.void, Registry.standard.register "drop" drop, .standard⟩
    let program := Node.ofSubshell [.ofCommand "drop" [] []]
    shell.registry.Returns shell.host ∧
    (∀ (culprit : Node) (missing : Missing), culprit.Reaches program → ¬ culprit.Lacks missing) ∧
    shell.run program .standard = .error ⟨.panicked "cannot pop the base scope", ""⟩ := by
  intro drop shell program
  refine ⟨?_, ?_, rfl⟩
  · intro name handler found arguments before
    rcases Table.get?_insert_or _ "drop" name drop handler found with ⟨_, rfl⟩ | standard
    · by_cases deep : 1 < before.scopes.depth
      · obtain ⟨⟨active, enclosing⟩, _⟩ := before
        cases enclosing with
        | nil => simp [Scopes.depth] at deep
        | cons next rest => exact ⟨_, if_pos deep, rfl⟩
      · exact ⟨before, if_neg deep, rfl⟩
    · exact Registry.standard_handlers_return .void name handler standard arguments before
  · intro culprit missing reached
    have complete : program.Complete := Node.complete_ofSubshell _
      (List.forall_mem_singleton.mpr (Node.complete_ofCommand "drop" []))
    exact complete culprit reached missing

end ShellWalk
