import ShellWalk.Limits.Reader
import ShellWalk.Proofs.Checked.Echo
import ShellWalk.Proofs.Checked.Printf
import ShellWalk.Proofs.Checked.Test
import ShellWalk.Proofs.Faults
import ShellWalk.Proofs.Termination

set_option autoImplicit false

namespace ShellWalk

namespace Registry

def checkedBuiltins : List (String × Handler) :=
  [("echo", Echo.checkedHandler), ("printf", Printf.checkedHandler), ("true", .constant 0),
   ("false", .constant 1), (":", .constant 0), ("test", Test.checkedHandler),
   ("[", Test.checkedBracketHandler)]

def checked : Registry := ⟨Table.empty.insertAll checkedBuiltins⟩

theorem checked_eq : checked = standard := by
  unfold checked checkedBuiltins
  rw [Echo.checkedHandler_eq, Printf.checkedHandler_eq, Test.checkedHandler_eq,
    Test.checkedBracketHandler_eq]
  rfl

end Registry

namespace Walk

def addMessage : String := "attempt to add with overflow"

-- A call that breaks down when the depth behind it cannot be counted.
def countedCall (limits : Limits) (run : Node → Step) : Calling :=
  fun name body arguments context =>
    if limits.recursion ≤ context.callDepth then refuse limits name body arguments context
    else if context.callDepth + 1 < Limits.recursionBound then
      Step.called arguments (run body) context
    else .error ⟨.panicked addMessage, context.terminal⟩

def counted (shell : Shell) : Nat → Node → Step
  | 0 => node shell (countedCall shell.limits overflow)
  | room + 1 => node shell (countedCall shell.limits (counted shell room))

theorem countedCall_eq (limits : Limits) (countable : limits.recursion < Limits.recursionBound) :
    countedCall limits = call limits := by
  funext run name body arguments context
  unfold countedCall call
  by_cases deep : limits.recursion ≤ context.callDepth
  · rw [if_pos deep, if_pos deep]
  · rw [if_neg deep, if_neg deep, if_pos (by omega)]

theorem counted_eq (shell : Shell) (countable : shell.limits.recursion < Limits.recursionBound)
    (room : Nat) : counted shell room = shell.within room := by
  induction room with
  | zero =>
      rw [counted, countedCall_eq _ countable]
      rfl
  | succ room ih =>
      rw [counted, countedCall_eq _ countable, ih]
      rfl

end Walk

def Shell.checkedRun (host : Host) (limits : Limits) (program : Node) (options : Options) :
    Outcome :=
  Walk.counted ⟨host, .checked, limits⟩ limits.recursion program options.start

theorem Shell.checkedRun_eq (host : Host) (limits : Limits)
    (countable : limits.recursion < Limits.recursionBound) (program : Node) (options : Options) :
    checkedRun host limits program options = run ⟨host, .standard, limits⟩ program options := by
  unfold checkedRun
  rw [Registry.checked_eq, Walk.counted_eq _ countable]
  rfl

theorem run_never_panics (host : Host) (limits : Limits)
    (countable : limits.recursion < Limits.recursionBound) :
    (∀ name arguments context, ∃ after,
      Registry.checked.run host name arguments context = .ok after) ∧
    ∀ (program : Node) (options : Options),
      Shell.checkedRun host limits program options =
        Shell.run ⟨host, .standard, limits⟩ program options ∧
      ((∃ result, Shell.checkedRun host limits program options = .ok result) ∨
        ∃ detail terminal,
          Shell.checkedRun host limits program options = .error ⟨.malformed detail, terminal⟩) := by
  have returns := Registry.standard_handlers_return host
  constructor
  · intro name arguments context
    obtain ⟨after, returned, _⟩ :=
      Registry.run_returns .standard host returns name arguments context
    exact ⟨after, by rw [Registry.checked_eq]; exact returned⟩
  · intro program options
    have same := Shell.checkedRun_eq host limits countable program options
    refine ⟨same, ?_⟩
    rw [same]
    cases ran : Shell.run ⟨host, .standard, limits⟩ program options with
    | ok result => exact .inl ⟨result, rfl⟩
    | error halt =>
        obtain ⟨culprit, missing, _, _, malformed⟩ := Shell.walk_blamed _ returns program
          options.start (Registry.standard_keepsStack host) halt ran
        rcases halt with ⟨fault, terminal⟩
        cases malformed
        exact .inr ⟨_, terminal, rfl⟩

theorem run_never_panics_malformed :
    let body := Node.ofGroup [.ofCommand "printf" [.ofWord "%-09."] [],
      .ofCommand "echo" [.ofWord "-e", .ofWord "\\"] [],
      .ofCommand "[" [.ofWord "!", .ofWord "-a", .ofWord "-o", .ofWord "]"] [],
      .ofCommand "f" [] []]
    let program := Node.ofGroup [.ofFunction "f" body, .ofCommand "f" [] []]
    Limits.standard.recursion < Limits.recursionBound ∧
      ((∃ result, Shell.checkedRun .void .standard program .standard = .ok result) ∨
        ∃ detail terminal, Shell.checkedRun .void .standard program .standard =
          .error ⟨.malformed detail, terminal⟩) := by
  intro body program
  have countable : Limits.standard.recursion < Limits.recursionBound := by decide
  exact ⟨countable, ((run_never_panics .void .standard countable).2 program .standard).2⟩

end ShellWalk
