import Mathlib.Algebra.Order.Floor.Div
import Mathlib.Data.List.TakeDrop
import ShellWalk.Proofs.Builtins

set_option autoImplicit false

namespace ShellWalk.Printf

def arity (format : List Piece) : Nat := format.countP Piece.consumes

structure Visit where
  piece : Piece
  argument : String
deriving DecidableEq, Repr

def Visit.printed : Visit → Printed
  | ⟨.literal text, _⟩ => ⟨text, []⟩
  | ⟨.field spec, argument⟩ => .ofField (spec.render argument)

def Piece.leaves (piece : Piece) (arguments : List String) : List String :=
  if piece.consumes then arguments.tail else arguments

def visits : List Piece → List String → List Visit
  | [], _ => []
  | piece :: rest, arguments =>
      ⟨piece, arguments.headD ""⟩ :: visits rest (piece.leaves arguments)

def rounds (format : List Piece) (arguments : List String) : List (List Visit) :=
  if (pass format arguments).2 ≠ [] ∧ (pass format arguments).2.length < arguments.length then
    visits format arguments :: rounds format (pass format arguments).2
  else
    [visits format arguments]
termination_by arguments.length
decreasing_by exact And.right ‹_›

def usedUp (made : List Visit) : List String :=
  (made.filter fun visit => visit.piece.consumes).map Visit.argument

def together (parts : List Printed) : Printed := parts.foldr .append .none

theorem Printed.append_none (printed : Printed) : printed.append .none = printed := by
  simp [Printed.append, Printed.none]

theorem Printed.append_assoc (first second third : Printed) :
    (first.append second).append third = first.append (second.append third) := by
  simp [Printed.append]

theorem together_append (front back : List Printed) :
    together (front ++ back) = (together front).append (together back) := by
  induction front with
  | nil => rfl
  | cons printed rest ih =>
      change printed.append (together (rest ++ back)) = _
      rw [ih, ← Printed.append_assoc]
      rfl

theorem arity_cons (piece : Piece) (rest : List Piece) :
    arity (piece :: rest) = arity rest + if piece.consumes then 1 else 0 :=
  List.countP_cons

theorem pass_cons (piece : Piece) (rest : List Piece) (arguments : List String) :
    pass (piece :: rest) arguments =
      ((Visit.mk piece (arguments.headD "")).printed.append (pass rest (piece.leaves arguments)).1,
        (pass rest (piece.leaves arguments)).2) := by
  cases piece with
  | literal text => rfl
  | field spec => rfl

theorem takeD_short {α : Type} (items : List α) (count : Nat) (filler : α)
    (short : items.length ≤ count) :
    items.takeD count filler = items ++ List.replicate (count - items.length) filler := by
  induction items generalizing count with
  | nil => simp
  | cons item rest ih =>
      obtain ⟨more, rfl⟩ : ∃ more, count = more + 1 := ⟨count - 1, by simp at short; omega⟩
      simp [ih more (by simpa using short)]

theorem takeD_full {α : Type} (items : List α) (count : Nat) (filler : α)
    (full : items.length = count) : items.takeD count filler = items := by
  have whole := List.takeD_left (a := filler) items []
  rwa [List.append_nil, full] at whole

theorem usedUp_append (front back : List Visit) :
    usedUp (front ++ back) = usedUp front ++ usedUp back := by
  simp [usedUp]

section Pass

variable (format : List Piece) (arguments : List String)

theorem pass_printed :
    (pass format arguments).1 = together ((visits format arguments).map Visit.printed) := by
  induction format generalizing arguments with
  | nil => rfl
  | cons piece rest ih =>
      rw [pass_cons, ih]
      rfl

theorem pass_remaining : (pass format arguments).2 = arguments.drop (arity format) := by
  induction format generalizing arguments with
  | nil => rfl
  | cons piece rest ih =>
      rw [pass_cons, arity_cons]
      by_cases taken : piece.consumes
      · simp [ih, Piece.leaves, taken, List.drop_tail]
      · simp [ih, Piece.leaves, taken]

theorem visits_piece : (visits format arguments).map Visit.piece = format := by
  induction format generalizing arguments with
  | nil => rfl
  | cons piece rest ih => simp [visits, ih]

theorem usedUp_visits : usedUp (visits format arguments) = arguments.takeD (arity format) "" := by
  induction format generalizing arguments with
  | nil => rfl
  | cons piece rest ih =>
      have later := ih (piece.leaves arguments)
      simp only [usedUp] at later
      rw [arity_cons]
      by_cases taken : piece.consumes
      · simp only [Piece.leaves, if_pos taken] at later
        simp [usedUp, visits, Piece.leaves, taken, later]
      · simp only [Piece.leaves, if_neg taken] at later
        simp [usedUp, visits, Piece.leaves, taken, later]

end Pass

theorem render_idle (spec : Spec) (idle : spec.consumes = false) (argument other : String) :
    spec.render argument = spec.render other := by
  unfold Spec.render
  cases found : spec.conversion with
  | none => rfl
  | some conversion =>
      cases spec.oversized with
      | some digits => rfl
      | none =>
          have none : takesArgument conversion = false := by
            rwa [Spec.consumes, found, Option.any_some] at idle
          simp only [takesArgument, Bool.or_eq_false_iff, decide_eq_false_iff_not] at none
          simp [none]

theorem printed_idle (piece : Piece) (idle : piece.consumes = false) (argument other : String) :
    (Visit.mk piece argument).printed = (Visit.mk piece other).printed := by
  cases piece with
  | literal text => rfl
  | field spec => simp only [Visit.printed, render_idle spec idle argument other]

theorem pass_congr (format : List Piece) (arguments others : List String)
    (same : arguments.takeD (arity format) "" = others.takeD (arity format) "") :
    (pass format arguments).1 = (pass format others).1 := by
  induction format generalizing arguments others with
  | nil => rfl
  | cons piece rest ih =>
      rw [arity_cons] at same
      rw [pass_cons, pass_cons]
      by_cases taken : piece.consumes
      · simp only [if_pos taken, List.takeD] at same
        obtain ⟨head, tail⟩ := List.cons.inj same
        simp only [Piece.leaves, if_pos taken, head, ih _ _ tail]
      · rw [if_neg taken, Nat.add_zero] at same
        have idle : piece.consumes = false := by simpa using taken
        simp only [Piece.leaves, if_neg taken, ih _ _ same,
          printed_idle piece idle (arguments.headD "") (others.headD "")]

section Passes

variable (format : List Piece) (arguments : List String)

theorem continues_iff :
    ((pass format arguments).2 ≠ [] ∧ (pass format arguments).2.length < arguments.length) ↔
      0 < arity format ∧ arity format < arguments.length := by
  rw [pass_remaining, Ne, List.drop_eq_nil_iff, List.length_drop]
  omega

theorem passes_once (last : ¬ (0 < arity format ∧ arity format < arguments.length)) :
    passes format arguments = (pass format arguments).1 := by
  rw [passes, if_neg ((continues_iff format arguments).not.mpr last)]

theorem passes_again (takes : 0 < arity format) (more : arity format < arguments.length) :
    passes format arguments =
      (pass format arguments).1.append (passes format (arguments.drop (arity format))) := by
  rw [passes, if_pos ((continues_iff format arguments).mpr ⟨takes, more⟩), pass_remaining]

end Passes

-- An invariant of the loop: it holds of a last pass, and a pass carries it over to itself and the
-- passes behind it.
theorem rounds_induction {motive : List String → List (List Visit) → Prop} (format : List Piece)
    (last : ∀ arguments, ¬ (0 < arity format ∧ arity format < arguments.length) →
      motive arguments [visits format arguments])
    (again : ∀ arguments later, 0 < arity format → arity format < arguments.length →
      motive (arguments.drop (arity format)) later →
      motive arguments (visits format arguments :: later))
    (arguments : List String) : motive arguments (rounds format arguments) := by
  fun_induction rounds format arguments with
  | case1 arguments continues ih =>
      obtain ⟨takes, more⟩ := (continues_iff format arguments).mp continues
      rw [pass_remaining] at ih ⊢
      exact again arguments _ takes more ih
  | case2 arguments ends => exact last arguments ((continues_iff format arguments).not.mp ends)

section Rounds

variable (format : List Piece) (arguments : List String)

theorem passes_eq_rounds :
    passes format arguments = together ((rounds format arguments).flatten.map Visit.printed) := by
  refine rounds_induction (motive := fun arguments made =>
    passes format arguments = together (made.flatten.map Visit.printed)) format ?_ ?_ arguments
  · intro arguments last
    rw [passes_once format arguments last, pass_printed]
    simp
  · intro arguments later takes more ih
    rw [passes_again format arguments takes more, ih, pass_printed, List.flatten_cons,
      List.map_append, together_append]

theorem rounds_piece : ∀ round ∈ rounds format arguments, round.map Visit.piece = format := by
  refine rounds_induction (motive := fun _ made =>
    ∀ round ∈ made, round.map Visit.piece = format) format ?_ ?_ arguments
  · intro arguments _
    exact List.forall_mem_singleton.mpr (visits_piece format arguments)
  · intro arguments later _ _ ih
    exact List.forall_mem_cons.mpr ⟨visits_piece format arguments, ih⟩

theorem rounds_length :
    (rounds format arguments).length = max 1 (arguments.length ⌈/⌉ arity format) := by
  simp only [Nat.ceilDiv_eq_add_pred_div]
  refine rounds_induction (motive := fun arguments made =>
    made.length = max 1 ((arguments.length + arity format - 1) / arity format)) format ?_ ?_
    arguments
  · intro arguments last
    have one : (arguments.length + arity format - 1) / arity format ≤ 1 := by
      by_cases none : arity format = 0
      · simp [none]
      · exact Nat.le_of_lt_succ ((Nat.div_lt_iff_lt_mul (by omega)).mpr (by omega))
    rw [List.length_singleton, max_eq_left one]
  · intro arguments later takes more ih
    have some : 1 ≤ ((arguments.length - arity format) + arity format - 1) / arity format :=
      (Nat.one_le_div_iff takes).mpr (by omega)
    have next : (arguments.length + arity format - 1) / arity format =
        ((arguments.length - arity format) + arity format - 1) / arity format + 1 := by
      rw [← Nat.add_div_right _ takes]
      congr 1
      omega
    rw [List.length_drop, max_eq_right some] at ih
    rw [List.length_cons, ih, next, max_eq_right (by omega)]

theorem usedUp_rounds (takes : 0 < arity format) :
    usedUp (rounds format arguments).flatten = arguments ++ List.replicate
      ((rounds format arguments).length * arity format - arguments.length) "" := by
  refine rounds_induction (motive := fun arguments made => usedUp made.flatten =
    arguments ++ List.replicate (made.length * arity format - arguments.length) "") format ?_ ?_
    arguments
  · intro arguments last
    have short : arguments.length ≤ arity format := by omega
    rw [List.flatten_singleton, usedUp_visits, takeD_short _ _ _ short, List.length_singleton,
      Nat.one_mul]
  · intro arguments later _ more ih
    have count : later.length * arity format - (arguments.drop (arity format)).length =
        (visits format arguments :: later).length * arity format - arguments.length := by
      rw [List.length_cons, Nat.succ_mul, List.length_drop]
      omega
    rw [List.flatten_cons, usedUp_append, usedUp_visits, ih, count,
      List.takeD_eq_take "" (Nat.le_of_lt more), ← List.append_assoc, List.take_append_drop]

theorem passes_idle (none : arity format = 0) :
    passes format arguments = (pass format []).1 := by
  rw [passes_once format arguments (by omega)]
  exact pass_congr format arguments [] (by simp [none])

theorem passes_append (first second : List String) (takes : 0 < arity format)
    (full : first.length = arity format) (more : second ≠ []) :
    passes format (first ++ second) = (passes format first).append (passes format second) := by
  have rest : 0 < second.length := List.length_pos_iff.mpr more
  have front : (pass format (first ++ second)).1 = (pass format first).1 := by
    apply pass_congr
    rw [List.takeD_left' full, takeD_full first _ _ full]
  rw [passes_again format (first ++ second) takes (by simp; omega), front,
    List.drop_left' full, passes_once format first (by omega)]

theorem passes_padded (short : arguments.length < arity format) :
    passes format arguments = passes format
      (arguments ++ List.replicate (arity format - arguments.length) "") := by
  have whole : (arguments ++ List.replicate (arity format - arguments.length) "").length =
      arity format := by
    simp
    omega
  rw [passes_once format arguments (by omega), passes_once format _ (by omega)]
  apply pass_congr
  rw [takeD_short _ _ _ (by omega), takeD_full _ _ _ whole]

end Rounds

theorem complete_append (first second : Printed) :
    (complete (first.append second)).stdout = (complete first).stdout ++ (complete second).stdout ∧
    (complete (first.append second)).stderr = (complete first).stderr ++ (complete second).stderr ∧
    ((complete (first.append second)).exitCode = 1 ↔
      (complete first).exitCode = 1 ∨ (complete second).exitCode = 1) := by
  have failed : ∀ printed : Printed,
      (complete printed).exitCode = 1 ↔ printed.diagnostics ≠ [] := by
    intro printed
    change printed.exitCode = 1 ↔ _
    by_cases clean : printed.diagnostics = [] <;> simp [Printed.exitCode, clean]
  refine ⟨String.ofList_append, String.ofList_append, ?_⟩
  rw [failed, failed, failed, Printed.append, Ne, List.append_eq_nil_iff, not_and_or]

theorem run_printf (host : Host) (context : Context) (format : String) (arguments : List String) :
    Registry.standard.run host "printf" (format :: arguments) context =
      .ok ((completion (format :: arguments)).apply
        (context.write (completion (format :: arguments)).stdout)) :=
  rfl

theorem format_reused (host : Host) (context : Context) (format : String) :
    let reading := pieces format.toList
    let printf := fun arguments => completion (format :: arguments)
    (∀ arguments, Registry.standard.run host "printf" (format :: arguments) context =
      .ok ((printf arguments).apply (context.write (printf arguments).stdout))) ∧
    (arity reading = 0 → ∀ arguments, printf arguments = complete (pass reading []).1) ∧
    (0 < arity reading → ∀ first second, first.length = arity reading → second ≠ [] →
      (printf (first ++ second)).stdout = (printf first).stdout ++ (printf second).stdout ∧
      (printf (first ++ second)).stderr = (printf first).stderr ++ (printf second).stderr ∧
      ((printf (first ++ second)).exitCode = 1 ↔
        (printf first).exitCode = 1 ∨ (printf second).exitCode = 1)) ∧
    (∀ arguments, arguments.length < arity reading → printf arguments =
      printf (arguments ++ List.replicate (arity reading - arguments.length) "")) ∧
    ∀ arguments,
      printf arguments =
        complete (together ((rounds reading arguments).flatten.map Visit.printed)) ∧
      (rounds reading arguments).length = max 1 (arguments.length ⌈/⌉ arity reading) ∧
      (∀ round ∈ rounds reading arguments, round.map Visit.piece = reading) ∧
      (0 < arity reading → usedUp (rounds reading arguments).flatten =
        arguments ++ List.replicate
          ((rounds reading arguments).length * arity reading - arguments.length) "") := by
  intro reading printf
  refine ⟨run_printf host context format, ?_, ?_, ?_, ?_⟩
  · intro none arguments
    exact congrArg complete (passes_idle reading arguments none)
  · intro takes first second full more
    have chunks := complete_append (passes reading first) (passes reading second)
    rwa [← passes_append reading first second takes full more] at chunks
  · intro arguments short
    exact congrArg complete (passes_padded reading arguments short)
  · intro arguments
    exact ⟨congrArg complete (passes_eq_rounds reading arguments), rounds_length reading arguments,
      rounds_piece reading arguments, usedUp_rounds reading arguments⟩

theorem format_reused_failing :
    let format := "%d %s;"
    let arguments := ["x", "a", "2"]
    let made := rounds (pieces format.toList) arguments
    arity (pieces format.toList) = 2 ∧
    (completion (format :: arguments)).stdout = " a;" ++ "2 ;" ∧
    (completion (format :: arguments)).stderr = "printf: 'x': invalid number\n" ++ "" ∧
    (completion (format :: arguments)).exitCode = 1 ∧
    completion [format, "2"] = completion [format, "2", ""] ∧
    made.length = 2 ∧ usedUp made.flatten = ["x", "a", "2", ""] := by
  have two : arity (pieces "%d %s;".toList) = 2 := by decide +kernel
  have first : completion ["%d %s;", "x", "a"] =
      ⟨" a;", "printf: 'x': invalid number\n", 1⟩ := by decide +kernel
  have second : completion ["%d %s;", "2"] = ⟨"2 ;", "", 0⟩ := by decide +kernel
  intro format arguments made
  obtain ⟨_, _, chunks, padded, loop⟩ :=
    format_reused .void (Context.start .simulate .empty false) format
  obtain ⟨_, count, _, used⟩ := loop arguments
  have passed : made.length = 2 := by
    rw [two] at count
    exact count.trans (by decide)
  have parts := chunks (by rw [two]; decide) ["x", "a"] ["2"] two.symm (by decide)
  simp only [format, first, second] at parts
  obtain ⟨stdout, stderr, code⟩ := parts
  refine ⟨two, stdout, stderr, code.mpr (.inl trivial), ?_, passed, ?_⟩
  · have short := padded ["2"] (by rw [two]; decide)
    rwa [two] at short
  · have order := used (by rw [two]; decide)
    rwa [passed, two] at order

end ShellWalk.Printf
