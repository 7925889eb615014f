import ShellWalk.Proofs.ExitCodes
import ShellWalk.Proofs.Padding
import ShellWalk.Proofs.Rollback
import ShellWalk.Proofs.Visibility

set_option autoImplicit false

namespace ShellWalk

namespace Text

inductive Index : List Char → Nat → Prop where
  | unsigned (digits : List Char) (decimal : Decimal digits) : Index digits (decimalValue digits)
  | positive (digits : List Char) (decimal : Decimal digits) :
      Index ('+' :: digits) (decimalValue digits)

theorem index?_unsigned (digits : List Char) (noPlus : digits.head? ≠ some '+') :
    index? digits = (natural? 10 digits).filter (· < wordSize) := by
  unfold index?
  split
  · exact absurd rfl noPlus
  · rfl

theorem decimal_noPlus {digits : List Char} (decimal : Decimal digits) :
    digits.head? ≠ some '+' := by
  intro first
  exact absurd (decimal.2 '+' (List.mem_of_head? first)).1 (by decide)

theorem filter_natural? (digits : List Char) (n : Nat) :
    (natural? 10 digits).filter (· < wordSize) = some n ↔
      (Decimal digits ∧ n = decimalValue digits) ∧ n < 2 ^ 64 := by
  rw [Option.filter_eq_some_iff, natural?_eq_some_iff, decide_eq_true_eq]
  rfl

theorem index?_eq_some_iff (text : List Char) (n : Nat) :
    index? text = some n ↔ Index text n ∧ n < 2 ^ 64 := by
  constructor
  · intro read
    by_cases plus : text.head? = some '+'
    · obtain ⟨digits, rfl⟩ := List.head?_eq_some_iff.mp plus
      obtain ⟨⟨decimal, rfl⟩, small⟩ := (filter_natural? digits n).mp read
      exact ⟨.positive digits decimal, small⟩
    · rw [index?_unsigned text plus] at read
      obtain ⟨⟨decimal, rfl⟩, small⟩ := (filter_natural? text n).mp read
      exact ⟨.unsigned text decimal, small⟩
  · rintro ⟨index, small⟩
    cases index with
    | unsigned _ decimal =>
        rw [index?_unsigned text (decimal_noPlus decimal)]
        exact (filter_natural? text _).mpr ⟨⟨decimal, rfl⟩, small⟩
    | positive digits decimal => exact (filter_natural? digits _).mpr ⟨⟨decimal, rfl⟩, small⟩

end Text

namespace Context

-- The answers to all names that no scope binds, for a call with these parameters. An index is read
-- as a word of 64 bits, and no list in memory has more items than such a word can count.
structure Answers (context : Context) (parameters : List String) : Prop where
  status : ¬ context.scopes.Binds "?" → context.lookup "?" = some (toString context.exitCode)
  count : ¬ context.scopes.Binds "#" → context.lookup "#" = some (toString parameters.length)
  joined : ∀ name ∈ ["@", "*"], ¬ context.scopes.Binds name →
    context.lookup name = some (String.intercalate " " parameters)
  shell : ¬ context.scopes.Binds "0" → context.lookup "0" = some "rshell"
  numbered : ∀ name index, Text.Index name.toList index → 1 ≤ index →
    index ≤ parameters.length → index < 2 ^ 64 → ¬ context.scopes.Binds name →
    ∃ value, parameters[index - 1]? = some value ∧ context.lookup name = some value
  nothing : ∀ name, name ∉ ["?", "#", "@", "*", "0"] →
    (∀ index, Text.Index name.toList index →
      index = 0 ∨ parameters.length < index ∨ 2 ^ 64 ≤ index) →
    ¬ context.scopes.Binds name → context.lookup name = none

theorem lookup_unbound (context : Context) (name : String)
    (unbound : ¬ context.scopes.Binds name) : context.lookup name = context.special? name := by
  rw [lookup, (context.scopes.get?_eq_none_iff name).mpr unbound]

theorem special?_numbered (context : Context) (name : String)
    (plain : name ∉ ["?", "#", "@", "*", "0"]) :
    context.special? name = numbered? context.positional name := by
  simp only [List.mem_cons, List.not_mem_nil, or_false, not_or] at plain
  obtain ⟨status, count, all, joined, shell⟩ := plain
  simp only [special?, if_neg status, if_neg count, all, joined, or_self, if_false, if_neg shell]

theorem numbered?_index (parameters : List String) (name : String) (index : Nat)
    (read : Text.index? name.toList = some index) :
    numbered? parameters name = if index = 0 then none else parameters[index - 1]? := by
  unfold numbered?
  cases index with
  | zero => simp [read]
  | succ place => simp [read]

theorem index_plain (name : String) (index : Nat) (read : Text.index? name.toList = some index)
    (positive : 1 ≤ index) : name ∉ ["?", "#", "@", "*", "0"] := by
  have table : ∀ mark ∈ ["?", "#", "@", "*", "0"],
      (Text.index? mark.toList).all (· = 0) = true := by decide
  intro special
  have zero := table name special
  rw [read, Option.all_some, decide_eq_true_eq] at zero
  omega

theorem answers_positional (context : Context) : context.Answers context.positional where
  status unbound := by
    rw [context.lookup_unbound _ unbound]
    change some (String.ofList (Text.signed context.exitCode)) = _
    rw [Printf.signed_eq_toString, String.ofList_toList]
  count unbound := context.lookup_unbound _ unbound
  joined name listed unbound := by
    rw [context.lookup_unbound _ unbound]
    simp only [List.mem_cons, List.not_mem_nil, or_false] at listed
    rcases listed with rfl | rfl <;> rfl
  shell unbound := context.lookup_unbound _ unbound
  numbered name index spelled positive present small unbound := by
    have read := (Text.index?_eq_some_iff _ index).mpr ⟨spelled, small⟩
    have inside : index - 1 < context.positional.length := by omega
    have found := List.getElem?_eq_getElem inside
    refine ⟨_, found, ?_⟩
    rw [context.lookup_unbound _ unbound,
      context.special?_numbered name (index_plain name index read positive),
      numbered?_index _ name index read, if_neg (by omega), found]
  nothing name plain past unbound := by
    rw [context.lookup_unbound _ unbound, context.special?_numbered name plain]
    cases read : Text.index? name.toList with
    | none => simp [numbered?, read]
    | some index =>
        obtain ⟨spelled, small⟩ := (Text.index?_eq_some_iff _ index).mp read
        rw [numbered?_index _ name index read]
        by_cases zero : index = 0
        · rw [if_pos zero]
        · rw [if_neg zero]
          have outside := past index spelled
          exact List.getElem?_eq_none (by omega)

end Context

def Registry.KeepsCall (registry : Registry) (host : Host) : Prop :=
  ∀ name handler, registry.handlers.get? name = some handler →
    ∀ arguments before after, handler host name arguments before = .ok after →
      after.positional = before.positional ∧ after.callDepth = before.callDepth

theorem Registry.KeepsCall.keepsDepth (registry : Registry) (host : Host)
    (keeps : registry.KeepsCall host) : registry.KeepsDepth host :=
  fun name handler found arguments before after done =>
    (keeps name handler found arguments before after done).2

theorem Registry.standard_keepsCall (host : Host) : standard.KeepsCall host := by
  intro name handler found arguments before after done
  have same := standard_wellBehaved host name handler found arguments before after done
  exact ⟨same.positional, same.callDepth⟩

def Step.attended (accepts : Context → Bool) (alarm : Halt) (step : Step) : Step :=
  (Step.guarded accepts alarm Step.skip).andThen (Step.guarded accepts alarm step)

theorem InStep.attended {inv : Context → Prop} (accepts : Context → Bool)
    (always : ∀ context, inv context → accepts context = true) (alarm : Halt)
    (steps : Bool → Step) (inStep : InStep inv steps) : InStep inv fun run =>
      if run then Step.attended accepts alarm (steps true) else steps false := by
  have opening := InStep.guarded accepts always alarm (fun _ => Step.skip) InStep.control.skip
  have both := InStep.control.andThen _ _ opening (InStep.guarded accepts always alarm _ inStep)
  refine InStep.pointwise _ fun before _ => ⟨_, both, fun run => ?_⟩
  cases run <;> rfl

namespace Walk

-- The evaluator with fuel, and the parameters of the call in which a node stands. They are tested
-- before and after every node; a call tests the nodes of its body for its own arguments.
def attended (shell : Shell) (accepts : List String → Context → Bool) (alarm spent : Halt) :
    Nat → List String → Node → Step
  | 0, _, _ => fun _ => .error spent
  | fuel + 1, parameters, whole => Step.attended (accepts parameters) alarm
      (nodeWith shell.limits.iterations
        (fun name arguments => dispatch shell
          (call shell.limits (attended shell accepts alarm spent fuel arguments)) name arguments)
        (attended shell accepts alarm spent fuel parameters) whole)

def attendedRuns (shell : Shell) (accepts : List String → Context → Bool) (alarm spent : Halt)
    (fuel : Nat) (parameters : List String) : Bool → Node → Step
  | true => attended shell accepts alarm spent fuel parameters
  | false => fueled shell spent fuel

theorem parameters_conserved :
    Conserved fun before after => after.positional = before.positional where
  refl := fun _ => rfl
  trans := fun _ _ _ first second => second.trans first
  setVariable := fun _ _ _ => rfl
  unsetVariable := fun _ _ => rfl
  define := fun _ _ _ => rfl
  addErrors := fun _ _ => rfl
  setExitCode := fun _ _ => rfl
  inScope := by
    intro context after popped inner done
    rw [Context.popScope_ok after popped done]
    exact inner
  called := fun _ _ _ _ => rfl

section Attending

variable {shell : Shell} {parameters : List String}

theorem inStep_keeps (step : Step)
    (keeps : step.Keeps fun before after => after.positional = before.positional) :
    InStep (·.positional = parameters) fun _ => step :=
  InStep.shared step fun before after here done => (keeps before after done).trans here

theorem handle_parameters (keeps : shell.registry.KeepsCall shell.host) (name : String)
    (arguments : List String) : (handle shell name arguments).Keeps
      fun before after => after.positional = before.positional :=
  Conserved.handle shell (shell.registry.run_of_handlers shell.host
    (fun name handler found arguments before after done =>
      (keeps name handler found arguments before after done).1)
    fun name arguments before =>
      (Registry.fallback_untouched shell.host name arguments before).positional) name arguments

theorem inStep_called (arguments : List String) (body : Bool → Step)
    (inner : InStep (·.positional = arguments) body) :
    InStep (·.positional = parameters) fun which => Step.called arguments (body which) := by
  constructor
  · intro before _
    simp only [Step.called, inner.same (before.enterCall arguments) rfl]
  · intro before after here done
    obtain ⟨last, _, returned⟩ := Step.andThen_ok
      (fun context => body false (context.enterCall arguments))
      (fun after => .ok (after.leaveCall before.positional)) before after done
    cases returned
    exact here

theorem inStep_attendedDispatch (keeps : shell.registry.KeepsCall shell.host)
    (run : List String → Bool → Node → Step)
    (inner : ∀ arguments body,
      InStep (·.positional = arguments) fun which => run arguments which body)
    (name : String) (arguments : List String) : InStep (·.positional = parameters)
      fun which => dispatch shell (call shell.limits (run arguments which)) name arguments :=
  dispatch_of_reads (fun _ => shell) _ name arguments (InStep.reads _)
    (fun body => call_of_reads shell.limits (run arguments) name body arguments (InStep.reads _)
      (inStep_keeps _ (parameters_conserved.refuse shell.limits name body arguments))
      (inStep_called arguments _ (inner arguments body)))
    (inStep_keeps _ (handle_parameters keeps name arguments))

theorem inStep_pieces (parameters : List String) (iterations : Nat) (dispatch : Bool → Dispatch)
    (dispatched : ∀ name arguments,
      InStep (·.positional = parameters) fun which => dispatch which name arguments) :
    Pieces (InStep (·.positional = parameters)) (fun _ => True) (fun _ => iterations) dispatch :=
  parameters_conserved.lockstep InStep.control InStep.reads inStep_keeps (fun _ => rfl)
    (fun before after done => by rw [Context.popScope_ok before after done]) (fun _ => iterations)
    dispatch
    (fun untilTrue condition body checked repeated => InStep.control.flow.rounds untilTrue _
      condition body (inStep_keeps _ (fun _ _ done => by cases done; rfl)) checked repeated _)
    dispatched

theorem inStep_attended (keeps : shell.registry.KeepsCall shell.host)
    (accepts : List String → Context → Bool)
    (always : ∀ parameters context, context.Answers parameters → accepts parameters context = true)
    (alarm spent : Halt) (fuel : Nat) (parameters : List String) (whole : Node) :
    InStep (·.positional = parameters)
      fun which => attendedRuns shell accepts alarm spent fuel parameters which whole := by
  -- The induction is on the fuel, for the parameters of all calls at once: the body of a call is
  -- run with one unit less, but with other parameters.
  induction fuel generalizing parameters whole with
  | zero =>
      have both : InStep (·.positional = parameters) fun _ _ => .error spent :=
        InStep.shared _ fun _ _ _ done => by cases done
      refine InStep.pointwise _ fun before _ => ⟨_, both, fun which => ?_⟩
      cases which <;> rfl
  | succ fuel ih =>
      have answered : ∀ context : Context, context.positional = parameters →
          accepts parameters context = true := by
        rintro context rfl
        exact always _ context context.answers_positional
      have pieces := inStep_pieces parameters shell.limits.iterations
        (fun which name arguments => dispatch shell
          (call shell.limits (attendedRuns shell accepts alarm spent fuel arguments which)) name
          arguments)
        (inStep_attendedDispatch keeps _ ih)
      have opened := pieces.nodeWith whole trivial
        (attendedRuns shell accepts alarm spent fuel parameters) fun part _ => ih parameters part
      have guarded := InStep.attended (accepts parameters) answered alarm _ opened
      refine InStep.pointwise _ fun before _ => ⟨_, guarded, fun which => ?_⟩
      cases which <;> rfl

end Attending

end Walk

namespace Shell

variable (shell : Shell)

theorem walk_attended (keeps : shell.registry.KeepsCall shell.host)
    (accepts : List String → Context → Bool)
    (always : ∀ parameters context, context.Answers parameters → accepts parameters context = true)
    (node : Node) (context : Context) :
    (∀ after, shell.walk node context = .ok after → after.positional = context.positional) ∧
    ∃ enough, ∀ fuel, enough ≤ fuel → ∀ alarm spent,
      Walk.attended shell accepts alarm spent fuel context.positional node context =
        shell.walk node context := by
  obtain ⟨enough, reached⟩ := walk_terminates.2 shell
    (Registry.KeepsCall.keepsDepth shell.registry shell.host keeps) node context
  have inStep := fun alarm spent fuel =>
    Walk.inStep_attended keeps accepts always alarm spent fuel context.positional node
  constructor
  · intro after done
    have finished := (reached enough (Nat.le_refl enough) default).trans done
    exact (inStep default default enough).kept context after rfl finished
  · refine ⟨enough, fun fuel plenty alarm spent => ?_⟩
    exact ((inStep alarm spent fuel).same context rfl).trans (reached fuel plenty spent)

section Calling

variable (source : Source) (word body : Node) (arguments assignments : List Node)
  (context : Context) (found : context.functions.get? word.text = some body)
  (named : ∀ node ∈ assignments, node.assignedName?.isSome)

include found named

theorem walk_returned (after : Context)
    (done : shell.walk (.command source (some word) arguments assignments) context = .ok after) :
    after.positional = context.positional := by
  obtain ⟨written, assigned, left, _, rfl, _, called, rfl⟩ :=
    shell.walk_assigning source word body arguments assignments context after found named done
  rw [Context.restore_revert]
  change left.positional = context.positional
  rcases Walk.call_cases _ _ _ _ _ _ _ called with entered | refused
  · obtain ⟨last, _, returned⟩ := Step.andThen_ok
      (fun outer => Walk.bodies shell shell.limits.recursion body
        (outer.enterCall (Node.expandAll arguments context)))
      (fun last => .ok (last.leaveCall context.positional)) _ left entered
    cases returned
    rfl
  · cases refused
    rfl

theorem walk_entering (keeps : shell.registry.KeepsDepth shell.host)
    (shallow : context.callDepth < shell.limits.recursion) :
    let texts := Node.expandAll arguments context
    ∃ entered : Context, entered.positional = texts ∧ ∀ run : Step,
      run entered = shell.walk body entered →
      shell.walk (.command source (some word) arguments assignments) context =
        Walk.callAssigning (assignments.filterMap Node.assignedName?)
          (assignments.map shell.walk) (Step.called texts run) context := by
  intro texts
  have known : context.functions.contains word.text = true := by
    rw [Table.contains, found]
    rfl
  obtain ⟨written, _, walked⟩ := Walk.inOrder_named shell assignments named context
  generalize made : { context with scopes := _ } = assigned at walked
  have listed : assigned.functions.get? word.text = some body := by rw [← made, found]
  have allowed : assigned.callDepth < shell.limits.recursion := by rw [← made]; exact shallow
  refine ⟨assigned.enterCall texts, rfl, fun run same => ?_⟩
  rw [Walk.command_called shell source word arguments assignments context known]
  change Walk.callAssigning _ _ (Walk.dispatch shell shell.call word.text texts) context = _
  have call : Walk.dispatch shell shell.call word.text texts assigned =
      Step.called texts run assigned := by
    simp only [Walk.dispatch, listed, call_eq keeps, Walk.call, if_neg (Nat.not_le.mpr allowed),
      Step.called, same]
  simp only [Walk.callAssigning, walked, bind, Except.bind, call]

end Calling

end Shell

theorem parameters_resolved :
    (∀ context : Context, context.Answers context.positional) ∧
    (∀ host, Registry.standard.KeepsCall host) ∧
    (∀ (shell : Shell) source word body arguments assignments context,
      context.functions.get? word.text = some body →
      (∀ node ∈ assignments, node.assignedName?.isSome) →
      ∀ after, shell.walk (.command source (some word) arguments assignments) context = .ok after →
        after.Answers context.positional) ∧
    ∀ shell : Shell, shell.registry.KeepsCall shell.host →
      ∀ accepts : List String → Context → Bool,
      (∀ parameters context, context.Answers parameters → accepts parameters context = true) →
      (∀ node context,
        (∀ after, shell.walk node context = .ok after → after.Answers context.positional) ∧
        ∃ enough, ∀ fuel, enough ≤ fuel → ∀ alarm spent,
          Walk.attended shell accepts alarm spent fuel context.positional node context =
            shell.walk node context) ∧
      ∀ source word body arguments assignments context,
        context.functions.get? word.text = some body →
        (∀ node ∈ assignments, node.assignedName?.isSome) →
        context.callDepth < shell.limits.recursion →
        let texts := Node.expandAll arguments context
        ∃ enough, ∀ fuel, enough ≤ fuel → ∀ alarm spent,
          shell.walk (.command source (some word) arguments assignments) context =
            Walk.callAssigning (assignments.filterMap Node.assignedName?)
              (assignments.map shell.walk)
              (Step.called texts (Walk.attended shell accepts alarm spent fuel texts body))
              context := by
  refine ⟨Context.answers_positional, Registry.standard_keepsCall, ?_, ?_⟩
  · intro shell source word body arguments assignments context found named after done
    rw [← shell.walk_returned source word body arguments assignments context found named after done]
    exact after.answers_positional
  · intro shell keeps accepts always
    constructor
    · intro node context
      obtain ⟨kept, attended⟩ := shell.walk_attended keeps accepts always node context
      refine ⟨fun after done => ?_, attended⟩
      rw [← kept after done]
      exact after.answers_positional
    · intro source word body arguments assignments context found named shallow texts
      obtain ⟨entered, parameters, entering⟩ := shell.walk_entering source word body arguments
        assignments context found named
        (Registry.KeepsCall.keepsDepth shell.registry shell.host keeps) shallow
      obtain ⟨_, enough, attended⟩ := shell.walk_attended keeps accepts always body entered
      refine ⟨enough, fun fuel plenty alarm spent => entering _ ?_⟩
      have same := attended fuel plenty alarm spent
      rwa [parameters] at same

theorem parameters_resolved_nested :
    let shown := fun index => Node.ofCommand "echo" [.ofVariable "#", .ofVariable index] []
    let body := Node.ofGroup [shown "+2", .ofCommand "g" [.ofWord "x"] [], shown "002"]
    let context := (((Context.start .simulate .empty false).define "g" (shown "1")).define "f"
      body).setPositional ["p"]
    let accepts := fun (parameters : List String) (context : Context) =>
      decide (context.scopes.get? "#" = none →
        context.lookup "#" = some (toString parameters.length))
    let assignment := Node.ofAssignment "V" (.ofWord "1")
    let shell := Shell.standard .void
    ∃ after, shell.walk (.ofCommand "f" [.ofWord "a", .ofWord "b"] [assignment]) context =
        .ok after ∧
      after.output = ["2 b", "1 x", "2 b"] ∧ after.Answers ["p"] ∧
      ∃ enough, ∀ fuel, enough ≤ fuel → ∀ alarm spent,
        Walk.callAssigning ["V"] [shell.walk assignment]
          (Step.called ["a", "b"] (Walk.attended shell accepts alarm spent fuel ["a", "b"] body))
          context = .ok after := by
  intro shown body context accepts assignment shell
  have always : ∀ parameters context, context.Answers parameters →
      accepts parameters context = true := fun parameters context answers =>
    decide_eq_true fun missing =>
      answers.count ((context.scopes.get?_eq_none_iff "#").mp missing)
  have found : context.functions.get? "f" = some body := rfl
  have named : ∀ node ∈ [assignment], node.assignedName?.isSome := by
    simp only [List.mem_singleton]
    rintro node rfl
    rfl
  obtain ⟨_, keeps, returned, attended⟩ := parameters_resolved
  obtain ⟨enough, reached⟩ := (attended shell (keeps .void) accepts always).2 (.ofText "f")
    (.leaf .commandName (.ofText "f")) body [.ofWord "a", .ofWord "b"] [assignment] context found
    named (by decide)
  have ran : ∃ after, shell.walk (.ofCommand "f" [.ofWord "a", .ofWord "b"] [assignment]) context =
      .ok after ∧ after.output = ["2 b", "1 x", "2 b"] := ⟨_, rfl, by decide +kernel⟩
  obtain ⟨after, done, output⟩ := ran
  refine ⟨after, done, output, ?_, enough, fun fuel plenty alarm spent => ?_⟩
  · exact returned shell (.ofText "f") (.leaf .commandName (.ofText "f")) body
      [.ofWord "a", .ofWord "b"] [assignment] context found named after done
  · exact (reached fuel plenty alarm spent).symm.trans done

end ShellWalk
