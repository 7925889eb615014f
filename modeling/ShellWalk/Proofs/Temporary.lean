import ShellWalk.Proofs.Rollback

set_option autoImplicit false

namespace ShellWalk

namespace Context

def shadowed (context : Context) (scope : Table String) : Context :=
  { context with scopes := ⟨scope, context.scopes.innermostFirst⟩ }

theorem leaveScope_shadowed (context : Context) (scope : Table String) (completion : Completion) :
    Step.leaveScope (completion.apply (context.shadowed scope)) = .ok (completion.apply context) :=
  rfl

end Context

namespace Walk

theorem handle_of_run (shell : Shell) (name : String) (arguments : List String)
    (context after : Context)
    (ran : shell.registry.run shell.host name arguments context = .ok after) :
    handle shell name arguments context = .ok after := by
  simp only [handle, ran, Context.settle]

theorem inOrder_shadowed (shell : Shell) (assignments : List Node)
    (named : ∀ node ∈ assignments, node.assignedName?.isSome) (context : Context) :
    ∃ scope, Step.inOrder (assignments.map shell.walk) context.pushScope =
      .ok (context.shadowed scope) := by
  obtain ⟨written, _, walked⟩ := inOrder_named shell assignments named context.pushScope
  exact ⟨_, walked⟩

theorem command_unshadowed (dispatch : Dispatch) (node word : Node)
    (arguments assignments : List Node) (assigning : List Step) (context : Context)
    (scope : Table String) (completion : Completion)
    (unknown : context.functions.get? word.text = none)
    (assigned : Step.inOrder assigning context.pushScope = .ok (context.shadowed scope))
    (plain : dispatch word.text (Node.expandAll arguments context) context =
      .ok (completion.apply context))
    (covered : dispatch word.text (Node.expandAll arguments context) (context.shadowed scope) =
      .ok (completion.apply (context.shadowed scope))) :
    command dispatch node (some word) arguments assignments assigning context =
      .ok (completion.apply context) := by
  have absent : context.functions.contains word.text = false := by
    rw [Table.contains, unknown]
    rfl
  simp only [command, absent]
  by_cases none : assignments.isEmpty = true
  · rw [if_pos none, plain]
  · rw [if_neg none, if_neg Bool.false_ne_true]
    have ran : ((Step.inOrder assigning).andThen
        (dispatch word.text (Node.expandAll arguments context))) context.pushScope =
          .ok (completion.apply (context.shadowed scope)) := by
      rw [Step.andThen_of_ok _ _ _ _ assigned, covered]
    exact (Step.andThen_of_ok (fun outer => ((Step.inOrder assigning).andThen
      (dispatch word.text (Node.expandAll arguments context))) outer.pushScope) Step.leaveScope
        context _ ran).trans (context.leaveScope_shadowed scope completion)

end Walk

theorem temporary_assignments_unseen (host : Host) (limits : Limits) (source bare : Source)
    (word : Node) (arguments assignments : List Node) (context : Context)
    (contained : context.mode ≠ .real) (unknown : context.functions.get? word.text = none)
    (named : ∀ node ∈ assignments, node.assignedName?.isSome) :
    ∃ after, Registry.standard.run host word.text (Node.expandAll arguments context) context =
        .ok after ∧ after.scopes = context.scopes ∧
      Shell.walk ⟨host, .standard, limits⟩ (.command bare (some word) arguments []) context =
        .ok after ∧
      Shell.walk ⟨host, .standard, limits⟩ (.command source (some word) arguments assignments)
        context = .ok after := by
  obtain ⟨completion, runs⟩ := Registry.standard_run host word.text
    (Node.expandAll arguments context) context.mode contained
  have dispatched : ∀ other : Context, other.mode = context.mode →
      other.functions = context.functions →
      Walk.dispatch ⟨host, .standard, limits⟩ (Shell.call ⟨host, .standard, limits⟩) word.text
        (Node.expandAll arguments context) other = .ok (completion.apply other) := by
    intro other mode functions
    simp only [Walk.dispatch, functions, unknown]
    exact Walk.handle_of_run _ _ _ other _ (runs other mode)
  have walked : ∀ place assignments, (∀ node ∈ assignments, node.assignedName?.isSome) →
      Shell.walk ⟨host, .standard, limits⟩ (.command place (some word) arguments assignments)
        context = .ok (completion.apply context) := by
    intro place assignments named
    obtain ⟨scope, assigned⟩ := Walk.inOrder_shadowed ⟨host, .standard, limits⟩ assignments named
      context
    rw [Shell.walk_command]
    exact Walk.command_unshadowed _ _ word arguments assignments _ context scope completion unknown
      assigned (dispatched context rfl rfl) (dispatched (context.shadowed scope) rfl rfl)
  exact ⟨completion.apply context, runs context rfl, rfl, walked bare [] (by simp),
    walked source assignments named⟩

theorem temporary_assignments_unseen_outer :
    let context := ((Context.start .capture (.ofList [("X", "0")]) false).setExitCode 3).pushScope
    let arguments := [Node.ofVariable "X", .ofVariable "?"]
    ∃ after, (Shell.standard .void).walk (.ofCommand "echo" arguments []) context = .ok after ∧
      (Shell.standard .void).walk (.ofCommand "echo" arguments
        [.ofAssignment "X" (.ofWord "1"), .ofAssignment "?" (.ofVariable "X")]) context =
          .ok after ∧ after.output = ["0 3"] ∧ after.scopes = context.scopes := by
  have printed : ∃ after, Registry.standard.run .void "echo" ["0", "3"]
      ((Context.start .capture (.ofList [("X", "0")]) false).setExitCode 3).pushScope =
        .ok after ∧ after.output = ["0 3"] := ⟨_, rfl, rfl⟩
  intro context arguments
  obtain ⟨after, ran, scopes, plain, assigned⟩ := temporary_assignments_unseen .void .standard
    (.ofText "echo") (.ofText "echo") (.leaf .commandName (.ofText "echo")) arguments
    [.ofAssignment "X" (.ofWord "1"), .ofAssignment "?" (.ofVariable "X")] context (by decide) rfl
    (by decide)
  obtain ⟨result, same, output⟩ := printed
  have expanded : Node.expandAll arguments context = ["0", "3"] := by decide
  rw [expanded] at ran
  cases same.symm.trans ran
  exact ⟨after, plain, assigned, output, scopes⟩

end ShellWalk
