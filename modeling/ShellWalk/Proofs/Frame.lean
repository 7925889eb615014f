import ShellWalk.Node.OfText
import ShellWalk.Proofs.Builtins
import ShellWalk.Proofs.Conserved
import ShellWalk.Run

set_option autoImplicit false

namespace ShellWalk

structure Context.Framed (before after : Context) : Prop where
  enclosing : after.scopes.enclosing = before.scopes.enclosing
  functions : before.functions.names <+: after.functions.names
  positional : after.positional = before.positional
  callDepth : after.callDepth = before.callDepth
  mode : after.mode = before.mode
  strict : after.strict = before.strict

-- A handler has the active scope to itself, but not the table of functions.
structure Context.Untouched (before after : Context) : Prop where
  enclosing : after.scopes.enclosing = before.scopes.enclosing
  functions : after.functions = before.functions
  positional : after.positional = before.positional
  callDepth : after.callDepth = before.callDepth
  mode : after.mode = before.mode
  strict : after.strict = before.strict

def Registry.WellBehaved (registry : Registry) (host : Host) : Prop :=
  ∀ name handler, registry.handlers.get? name = some handler →
    ∀ arguments before after, handler host name arguments before = .ok after →
      Context.Untouched before after

namespace Context

theorem Untouched.framed (before after : Context) (same : Untouched before after) :
    Framed before after where
  enclosing := same.enclosing
  functions := by simp only [same.functions, List.prefix_rfl]
  positional := same.positional
  callDepth := same.callDepth
  mode := same.mode
  strict := same.strict

theorem write_untouched (context : Context) (text : String) :
    Untouched context (context.write text) := by
  unfold write
  split <;> exact ⟨rfl, rfl, rfl, rfl, rfl, rfl⟩

theorem apply_untouched (before context : Context) (completion : Completion)
    (same : Untouched before context) : Untouched before (completion.apply context) :=
  ⟨same.enclosing, same.functions, same.positional, same.callDepth, same.mode, same.strict⟩

theorem popScope_below (context after : Context)
    (below : after.scopes.enclosing = context.pushScope.scopes.enclosing) :
    after.popScope = .ok { after with scopes := context.scopes } := by
  unfold popScope Scopes.pop?
  rw [below]
  rfl

theorem popScope_framed (context after : Context) (framed : Framed context.pushScope after) :
    after.popScope = .ok { after with scopes := context.scopes } :=
  popScope_below context after framed.enclosing

theorem restore_fields (bindings : List (String × Option String)) (context : Context) :
    Step.restore bindings context =
      { context with scopes := (Step.restore bindings context).scopes } := by
  induction bindings with
  | nil => rfl
  | cons binding rest ih =>
      rcases binding with ⟨name, value⟩
      change Step.restoreBinding (name, value) (Step.restore rest context) = _
      rw [ih]
      cases value <;> rfl

theorem framed_conserved : Conserved Framed where
  refl := fun context => ⟨rfl, List.prefix_rfl, rfl, rfl, rfl, rfl⟩
  trans := fun before between after first second =>
    ⟨second.enclosing.trans first.enclosing, first.functions.trans second.functions,
      second.positional.trans first.positional, second.callDepth.trans first.callDepth,
      second.mode.trans first.mode, second.strict.trans first.strict⟩
  setVariable := fun context name value => ⟨rfl, List.prefix_rfl, rfl, rfl, rfl, rfl⟩
  unsetVariable := fun context name => ⟨rfl, List.prefix_rfl, rfl, rfl, rfl, rfl⟩
  define := fun context name body =>
    ⟨rfl, Table.names_insert context.functions name body, rfl, rfl, rfl, rfl⟩
  addErrors := fun context lines => ⟨rfl, List.prefix_rfl, rfl, rfl, rfl, rfl⟩
  setExitCode := fun context code => ⟨rfl, List.prefix_rfl, rfl, rfl, rfl, rfl⟩
  inScope := by
    intro context after popped inner done
    rw [popScope_framed context after inner] at done
    cases done
    exact ⟨rfl, inner.functions, inner.positional, inner.callDepth, inner.mode, inner.strict⟩
  called := by
    intro context arguments after inner
    refine ⟨inner.enclosing, inner.functions, rfl, ?_, inner.mode, inner.strict⟩
    have entered : after.callDepth = context.callDepth + 1 := inner.callDepth
    simp only [leaveCall, entered, Nat.add_sub_cancel]

end Context

namespace Registry

theorem fallback_untouched (host : Host) (name : String) (arguments : List String)
    (context : Context) : Context.Untouched context (fallback host name arguments context) :=
  Context.apply_untouched context context _ ⟨rfl, rfl, rfl, rfl, rfl, rfl⟩

theorem run_of_handlers {Q : Context → Context → Prop} (registry : Registry) (host : Host)
    (handled : ∀ name handler, registry.handlers.get? name = some handler →
      ∀ arguments before after, handler host name arguments before = .ok after → Q before after)
    (otherwise : ∀ name arguments before, Q before (fallback host name arguments before))
    (name : String) (arguments : List String) (before after : Context)
    (done : registry.run host name arguments before = .ok after) : Q before after := by
  unfold run at done
  cases found : registry.handlers.get? name with
  | some handler =>
      simp only [found] at done
      exact handled name handler found arguments before after done
  | none =>
      simp only [found] at done
      cases done
      exact otherwise name arguments before

theorem run_untouched (registry : Registry) (host : Host) (behaved : registry.WellBehaved host)
    (name : String) (arguments : List String) (before after : Context)
    (done : registry.run host name arguments before = .ok after) :
    Context.Untouched before after :=
  registry.run_of_handlers host behaved (fallback_untouched host) name arguments before after done

theorem standard_returns (host : Host) (name : String) (handler : Handler)
    (found : standard.handlers.get? name = some handler) (arguments : List String)
    (before : Context) :
    ∃ after, handler host name arguments before = .ok after ∧ Context.Untouched before after := by
  obtain ⟨completion, text, finishes⟩ := standard_plain name handler found
  refine ⟨_, finishes host name arguments before, ?_⟩
  exact Context.apply_untouched before _ _ (Context.write_untouched before _)

theorem standard_wellBehaved (host : Host) : standard.WellBehaved host := by
  intro name handler found arguments before after done
  obtain ⟨result, returned, same⟩ := standard_returns host name handler found arguments before
  rw [returned] at done
  cases done
  exact same

end Registry

namespace Walk

theorem handle_framed (shell : Shell) (behaved : shell.registry.WellBehaved shell.host)
    (name : String) (arguments : List String) :
    (handle shell name arguments).Keeps Context.Framed :=
  Conserved.handle shell (fun name arguments before after ran =>
    (Registry.run_untouched _ _ behaved name arguments before after ran).framed) name arguments

theorem within_framed (shell : Shell) (behaved : shell.registry.WellBehaved shell.host) (room : Nat)
    (node : Node) : (shell.within room node).Keeps Context.Framed :=
  Context.framed_conserved.within shell (handle_framed shell behaved) room node

theorem inScope_scopes (step : Step) (kept : step.Keeps Context.Framed) (before after : Context)
    (done : Step.inScope step before = .ok after) : after.scopes = before.scopes := by
  obtain ⟨inner, ran, left⟩ := Step.andThen_ok (fun context => step context.pushScope)
    Step.leaveScope before after done
  have popped := Step.leaveScope_ok inner after left
  rw [Context.popScope_framed before inner (kept _ _ ran)] at popped
  cases popped
  rfl

theorem within_subshell (shell : Shell) (room : Nat) (kind : GroupKind) (outer inner : Source)
    (children : List Node) : shell.within room (.subshell outer children) =
      Step.inScope (shell.within room (.group kind inner children)) := by
  simp only [within_eq, node]

end Walk

theorem walk_frame :
    (∀ host, Registry.standard.WellBehaved host) ∧
    (∀ host name handler, Registry.standard.handlers.get? name = some handler →
      ∀ arguments context, ∃ after, handler host name arguments context = .ok after) ∧
    ∀ shell : Shell, shell.registry.WellBehaved shell.host → ∀ node context after,
      shell.walk node context = .ok after →
        after.scopes.depth = context.scopes.depth ∧ Context.Framed context after ∧
        ∀ source children, node = .subshell source children → after.scopes = context.scopes := by
  refine ⟨Registry.standard_wellBehaved, ?_, ?_⟩
  · intro host name handler found arguments context
    obtain ⟨after, returned, _⟩ :=
      Registry.standard_returns host name handler found arguments context
    exact ⟨after, returned⟩
  · intro shell behaved node context after done
    have framed := Walk.within_framed shell behaved _ node context after done
    refine ⟨?_, framed, ?_⟩
    · simp only [Scopes.depth, framed.enclosing]
    · rintro source children rfl
      unfold Shell.walk at done
      rw [Walk.within_subshell shell _ .compound source source] at done
      exact Walk.inScope_scopes _ (Walk.within_framed shell behaved _ _) context after done

theorem walk_frame_subshell :
    let context := (Context.start .simulate (.ofList [("X", "0")]) true).pushScope
    let node := Node.ofSubshell [.ofFunction "f" (.ofAssignment "X" (.ofWord "1")),
      .ofCommand "f" [.ofWord "a"] [.ofAssignment "Y" (.ofWord "2")], .ofCommand "false" [] []]
    ∃ after, (Shell.standard .void).walk node context = .ok after ∧ after.exitCode = 1 ∧
      Context.Framed context after ∧ after.scopes = context.scopes := by
  intro context node
  have finished : ∃ after, (Shell.standard .void).walk node context = .ok after ∧
      after.exitCode = 1 := ⟨_, rfl, rfl⟩
  obtain ⟨after, done, code⟩ := finished
  obtain ⟨_, framed, restored⟩ := walk_frame.2.2 (Shell.standard .void) (walk_frame.1 .void)
    node context after done
  exact ⟨after, done, code, framed, restored _ _ rfl⟩

end ShellWalk
