import ShellWalk.Proofs.Retelling

set_option autoImplicit false

namespace ShellWalk

namespace Retelling

def silenced : Retelling where
  output := id
  errors := id
  mode := id
  terminal := fun _ => ""
  output_append := fun _ _ => rfl
  errors_append := fun _ _ => rfl

def simulated : Retelling where
  output := id
  errors := id
  mode := fun _ => .simulate
  terminal := fun _ => ""
  output_append := fun _ _ => rfl
  errors_append := fun _ _ => rfl

theorem simulated_contained (context : Context) : (simulated.context context).mode ≠ .real := by
  change Mode.simulate ≠ .real
  decide

theorem simulated_write (context : Context) (text : String) :
    (simulated.context context).write text = simulated.context (context.write text) := by
  unfold Context.write
  rw [if_neg (simulated_contained context)]
  split <;> rfl

theorem simulated_fallback (host : Host) (name : String) (arguments : List String)
    (context : Context) :
    Registry.fallback host name arguments (simulated.context context) =
      simulated.context (Registry.fallback .void name arguments context) := by
  have missing : Host.void.runProgram name arguments context = .notFound name := by
    simp only [Host.runProgram, Host.void, Option.getD_none, ite_self]
  simp only [Registry.fallback, missing, ite_self, if_neg (simulated_contained context),
    simulated.context_apply]

theorem simulated_fits (host : Host) (mode : Mode) :
    simulated.Fits (fun run => if run then host else .void) mode where
  files := by
    funext test path
    cases test <;> simp [Host.fileTest, simulated, Host.void]
  write := fun context text _ => simulated_write context text
  fallback := fun name arguments context _ => simulated_fallback host name arguments context

theorem silenced_fits (host : Host) (mode : Mode) (contained : mode ≠ .real) :
    silenced.Fits (fun _ => host) mode where
  files := rfl
  write := by
    intro context text level
    have here : context.mode ≠ .real := level ▸ contained
    have there : (silenced.context context).mode ≠ .real := here
    simp only [Context.write, if_neg here, if_neg there]
  fallback := by
    intro name arguments context level
    have here : context.mode ≠ .real := level ▸ contained
    have there : (silenced.context context).mode ≠ .real := here
    simp only [Registry.fallback, if_neg here, if_neg there, silenced.context_apply]

end Retelling

namespace Outcome

def terminal : Outcome → String
  | .ok after => after.terminal
  | .error halt => halt.terminal

def inMode (mode : Mode) (text : String) : Outcome → Outcome
  | .ok after => .ok { after with mode := mode, terminal := text }
  | .error halt => .error { halt with terminal := text }

theorem silenced_terminal (outcome : Outcome) :
    (Retelling.silenced.outcome outcome).terminal = "" := by
  cases outcome <;> rfl

theorem simulated_inMode (mode : Mode) (outcome : Outcome)
    (level : ∀ after, outcome = .ok after → after.mode = mode) :
    (Retelling.simulated.outcome outcome).inMode mode outcome.terminal = outcome := by
  cases outcome with
  | error halt => rfl
  | ok after =>
      have same := level after rfl
      subst same
      rfl

end Outcome

namespace Shell

theorem run_mode (host : Host) (limits : Limits) (program : Node) (options : Options)
    (result : Context) (done : run ⟨host, .standard, limits⟩ program options = .ok result) :
    result.mode = options.mode :=
  (Walk.within_framed ⟨host, .standard, limits⟩ (Registry.standard_wellBehaved host) _ program
    options.start result done).mode

theorem run_simulated (host : Host) (limits : Limits) (program : Node) (mode : Mode)
    (environment : Table String) (strict : Bool) :
    run ⟨host, .standard, limits⟩ program ⟨.simulate, environment, strict⟩ =
      Retelling.simulated.outcome
        (run ⟨.void, .standard, limits⟩ program ⟨mode, environment, strict⟩) :=
  (Retelling.simulated_fits host mode).walk limits program
    (Context.start mode environment strict) rfl

theorem run_silenced (host : Host) (limits : Limits) (program : Node) (options : Options)
    (contained : options.mode ≠ .real) :
    run ⟨host, .standard, limits⟩ program options =
      Retelling.silenced.outcome (run ⟨host, .standard, limits⟩ program options) :=
  (Retelling.silenced_fits host options.mode contained).walk limits program options.start rfl

end Shell

theorem simulation_of_void (limits : Limits) (program : Node) (environment : Table String)
    (strict : Bool) :
    let run := fun (host : Host) (mode : Mode) =>
      Shell.run ⟨host, .standard, limits⟩ program ⟨mode, environment, strict⟩
    (∀ host other, run host .simulate = run other .simulate) ∧
    (∀ host mode, ∃ text, run .void mode = (run host .simulate).inMode mode text) ∧
    ∀ host mode, mode ≠ .real → (run host mode).terminal = "" := by
  intro run
  have simulated : ∀ host mode,
      run host .simulate = Retelling.simulated.outcome (run .void mode) := fun host mode =>
    Shell.run_simulated host limits program mode environment strict
  refine ⟨?_, ?_, ?_⟩
  · intro host other
    exact (simulated host .simulate).trans (simulated other .simulate).symm
  · intro host mode
    refine ⟨(run .void mode).terminal, ?_⟩
    rw [simulated host mode]
    refine (Outcome.simulated_inMode mode _ fun result done => ?_).symm
    exact Shell.run_mode .void limits program ⟨mode, environment, strict⟩ result done
  · intro host mode contained
    have silent : run host mode = Retelling.silenced.outcome (run host mode) :=
      Shell.run_silenced host limits program ⟨mode, environment, strict⟩ contained
    rw [silent]
    exact Outcome.silenced_terminal _

theorem simulation_of_void_full :
    let full : Host := ⟨fun _ => true, fun _ => true, fun _ => true,
      fun name _ _ => some (.success (name ++ "\n"))⟩
    let program := Node.ofGroup [.ofCommand "echo" [.ofWord "hi"] [], .ofCommand "ls" [] []]
    let run := fun (host : Host) (mode : Mode) =>
      Shell.run ⟨host, .standard, .standard⟩ program ⟨mode, .empty, false⟩
    run full .simulate = run .void .simulate ∧
      (∃ text, run .void .real = (run full .simulate).inMode .real text) ∧
      (run full .capture).terminal = "" ∧
      (∃ result, run full .simulate = .ok result ∧ result.errors = ["ls: command not found"]) ∧
      ∃ result, run full .real = .ok result ∧ result.output = ["hi", "ls"] ∧
        result.terminal = "hi\n" := by
  intro full program run
  obtain ⟨blind, alike, silent⟩ := simulation_of_void .standard program .empty false
  have unknown : ∃ result, run full .simulate = .ok result ∧
      result.errors = ["ls: command not found"] := ⟨_, rfl, by decide +kernel⟩
  have started : ∃ result, run full .real = .ok result ∧ result.output = ["hi", "ls"] ∧
      result.terminal = "hi\n" := ⟨_, rfl, by decide +kernel, by decide +kernel⟩
  exact ⟨blind full .void, alike full .real, silent full .capture (by decide), unknown, started⟩

end ShellWalk
