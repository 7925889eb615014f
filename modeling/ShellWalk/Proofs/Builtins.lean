import ShellWalk.Command.Registry

set_option autoImplicit false

namespace ShellWalk

theorem Context.write_empty (context : Context) : context.write "" = context := by
  unfold Context.write
  split
  · simp
  · rfl

def Accounted (code : Int) (messages : List String) : Prop :=
  (code = 0 ∨ code = 1 ∨ code = 2 ∨ code = 127) ∧ (code = 2 ∨ code = 127 → messages ≠ [])

instance (code : Int) (messages : List String) : Decidable (Accounted code messages) :=
  inferInstanceAs (Decidable (_ ∧ _))

namespace Completion

def Accounted (completion : Completion) : Prop :=
  ShellWalk.Accounted completion.exitCode (Text.linesOf completion.stderr)

theorem accounted_plain (completion : Completion)
    (plain : completion.exitCode = 0 ∨ completion.exitCode = 1) : completion.Accounted := by
  unfold Accounted ShellWalk.Accounted
  omega

theorem accounted_message (stdout stderr : String) (code : Int) (hard : code = 2 ∨ code = 127)
    (present : stderr ≠ "") : (Completion.mk stdout stderr code).Accounted :=
  ⟨by simp [hard], fun _ => Text.linesOf_ne_nil stderr present⟩

theorem notFound_accounted (name : String) : (notFound name).Accounted :=
  accounted_message "" _ 127 (.inr rfl) (by simp)

end Completion

namespace Printf

def completion : List String → Completion
  | [] => usage
  | format :: rest => complete (passes (pieces format.toList) rest)

def onTerminal : List String → String
  | [] => ""
  | format :: rest => String.ofList (passes (pieces format.toList) rest).output

theorem completion_accounted (arguments : List String) : (completion arguments).Accounted := by
  cases arguments with
  | nil => exact Completion.accounted_message "" _ 2 (.inl rfl) (by decide)
  | cons format rest =>
      apply Completion.accounted_plain
      change Printed.exitCode _ = 0 ∨ Printed.exitCode _ = 1
      unfold Printed.exitCode
      split <;> simp

end Printf

namespace Test

theorem verdict_accounted (name : String) (result : Except Failure Bool) :
    (verdict name result).Accounted := by
  cases result with
  | ok value =>
      apply Completion.accounted_plain
      cases value with
      | true => exact .inl rfl
      | false => exact .inr rfl
  | error failure => exact Completion.accounted_message "" _ 2 (.inl rfl) (by simp)

theorem missingBracket_accounted (name : String) : (missingBracket name).Accounted :=
  Completion.accounted_message "" _ 2 (.inl rfl) (by simp)

end Test

namespace Handler

def Plain (handler : Handler) : Prop :=
  ∃ (completion : Host → Mode → String → List String → Completion) (text : List String → String),
    ∀ host name arguments context, handler host name arguments context =
      .ok ((completion host context.mode name arguments).apply (context.write (text arguments)))

-- A handler that learns of the world what file tests tell it.
def Regular (handler : Handler) : Prop :=
  ∃ (completion : (FileTest → String → Bool) → String → List String → Completion)
    (text : List String → String),
    (∀ host name arguments context, handler host name arguments context =
      .ok ((completion (host.fileTest context.mode) name arguments).apply
        (context.write (text arguments)))) ∧
    ∀ files name arguments, (completion files name arguments).Accounted

theorem Regular.plain {handler : Handler} (regular : handler.Regular) : handler.Plain := by
  obtain ⟨completion, text, finishes, _⟩ := regular
  exact ⟨fun host mode => completion (host.fileTest mode), text, finishes⟩

theorem constant_regular (exitCode : Int) (plain : exitCode = 0 ∨ exitCode = 1) :
    (Handler.constant exitCode).Regular := by
  refine ⟨fun _ _ _ => .silent exitCode, fun _ => "", ?_, ?_⟩
  · intro host name arguments context
    rw [Context.write_empty]
    rfl
  · intro files name arguments
    exact Completion.accounted_plain _ plain

theorem echo_regular : Handler.Regular Echo.handler :=
  ⟨fun _ _ arguments => .success (Echo.inLog (Echo.printed arguments)),
    fun arguments => Echo.onTerminal (Echo.printed arguments), fun _ _ _ _ => rfl,
    fun _ _ _ => Completion.accounted_plain _ (.inl rfl)⟩

theorem printf_regular : Handler.Regular Printf.handler := by
  refine ⟨fun _ _ => Printf.completion, Printf.onTerminal, ?_,
    fun _ _ => Printf.completion_accounted⟩
  intro host name arguments context
  cases arguments with
  | nil =>
      simp only [Printf.onTerminal, Context.write_empty]
      rfl
  | cons format rest => rfl

theorem test_regular : Handler.Regular Test.handler := by
  refine ⟨fun files name arguments => Test.verdict name (Test.evaluate files arguments),
    fun _ => "", ?_, fun _ name _ => Test.verdict_accounted name _⟩
  intro host name arguments context
  rw [Context.write_empty]
  rfl

theorem bracket_regular : Handler.Regular Test.bracketHandler := by
  refine ⟨fun files name arguments =>
    if arguments.getLast? = some "]" then
      Test.verdict name (Test.evaluate files arguments.dropLast)
    else Test.missingBracket name, fun _ => "", ?_, ?_⟩
  · intro host name arguments context
    rw [Context.write_empty]
    unfold Test.bracketHandler
    by_cases closed : arguments.getLast? = some "]"
    · simp only [if_pos closed, Test.run]
    · simp only [if_neg closed]
  · intro files name arguments
    by_cases closed : arguments.getLast? = some "]"
    · simpa only [if_pos closed] using Test.verdict_accounted name _
    · simpa only [if_neg closed] using Test.missingBracket_accounted name

end Handler

namespace Registry

theorem standard_regular (name : String) (handler : Handler)
    (found : standard.handlers.get? name = some handler) : handler.Regular := by
  rcases Table.get?_insertAll .empty builtins name handler found with member | member
  · simp only [builtins, List.mem_cons, Prod.mk.injEq, List.not_mem_nil, or_false] at member
    rcases member with ⟨_, rfl⟩ | ⟨_, rfl⟩ | ⟨_, rfl⟩ | ⟨_, rfl⟩ | ⟨_, rfl⟩ | ⟨_, rfl⟩ | ⟨_, rfl⟩
    · exact Handler.echo_regular
    · exact Handler.printf_regular
    · exact Handler.constant_regular 0 (.inl rfl)
    · exact Handler.constant_regular 1 (.inr rfl)
    · exact Handler.constant_regular 0 (.inl rfl)
    · exact Handler.test_regular
    · exact Handler.bracket_regular
  · cases member

theorem standard_plain (name : String) (handler : Handler)
    (found : standard.handlers.get? name = some handler) : handler.Plain :=
  (standard_regular name handler found).plain

theorem standard_applies (host : Host) (name : String) (arguments : List String)
    (context : Context) : ∃ completion text, standard.run host name arguments context =
      .ok (Completion.apply completion (context.write text)) := by
  unfold run
  cases found : standard.handlers.get? name with
  | none => exact ⟨_, "", by rw [Context.write_empty]; rfl⟩
  | some handler =>
      obtain ⟨completion, text, finishes⟩ := standard_plain name handler found
      exact ⟨_, _, finishes host name arguments context⟩

theorem standard_accounted (host : Host) (name : String) (arguments : List String) (mode : Mode)
    (contained : mode ≠ .real) : ∃ completion : Completion, completion.Accounted ∧
      ∀ context : Context, context.mode = mode → standard.run host name arguments context =
        .ok (completion.apply context) := by
  unfold run
  cases found : standard.handlers.get? name with
  | none =>
      refine ⟨.notFound name, Completion.notFound_accounted name, fun context same => ?_⟩
      have other : context.mode ≠ .real := same ▸ contained
      simp only [fallback, if_neg other]
  | some handler =>
      obtain ⟨completion, text, finishes, accounted⟩ := standard_regular name handler found
      refine ⟨completion (host.fileTest mode) name arguments, accounted _ _ _,
        fun context same => ?_⟩
      simp only [finishes, same, Context.write, if_neg contained]

theorem standard_run (host : Host) (name : String) (arguments : List String) (mode : Mode)
    (contained : mode ≠ .real) : ∃ completion : Completion, ∀ context : Context,
      context.mode = mode → standard.run host name arguments context =
        .ok (completion.apply context) := by
  obtain ⟨completion, _, ran⟩ := standard_accounted host name arguments mode contained
  exact ⟨completion, ran⟩

end Registry

end ShellWalk
