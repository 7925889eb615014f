import ShellWalk.Proofs.Conditions
import ShellWalk.Proofs.Numerals

set_option autoImplicit false

namespace ShellWalk.Test

section Words

variable (files : FileTest → String → Bool) (left operator right : String)

theorem evaluate_binary (plain : left ≠ "!") (simple : operator ∉ ["-a", "-o"]) :
    evaluate files [left, operator, right] = binary left operator right := by
  simp only [List.mem_cons, List.not_mem_nil, or_false, not_or] at simple
  exact evaluate_plain files left [operator, right] plain (List.cons_ne_nil _ _)
    (by simpa using Ne.symm simple.2) (by simpa using Ne.symm simple.1)

-- Behind a negation the operator stands where the test of one word is expected.
theorem evaluate_misread (other : operator ∉ ["!", "-z", "-n", "-e", "-f", "-d"]) :
    evaluate files ["!", operator, right] = .error (.unaryExpected operator) := by
  simp only [List.mem_cons, List.not_mem_nil, or_false, not_or] at other
  obtain ⟨plain, z, n, e, f, d⟩ := other
  have unknown : unary files operator right = .error (.unaryExpected operator) := by
    simp [unary, FileTest.ofName?, z, n, e, f, d]
  rw [evaluate_not files _ (List.cons_ne_nil _ _),
    evaluate_plain files operator [right] plain (List.cons_ne_nil _ _) (by simp) (by simp)]
  change (unary files operator right).map _ = _
  rw [unknown]
  rfl

end Words

theorem run_misread (host : Host) (context : Context) (operator right : String)
    (named : operator ∈ ["=", "==", "!="]) (form : String × List String)
    (listed : form ∈ forms ["!", operator, right]) :
    Registry.standard.run host form.1 form.2 context = .ok ((context.addErrors
      [form.1 ++ ": " ++ operator ++ ": unary operator expected"]).setExitCode 2) := by
  have other : ∀ operator ∈ ["=", "==", "!="],
      operator ∉ ["!", "-z", "-n", "-e", "-f", "-d"] := by decide
  have recorded : ∀ operator ∈ ["=", "==", "!="], ∀ name ∈ ["test", "["],
      Text.linesOf (name ++ ": " ++ (Failure.unaryExpected operator).message ++ "\n") =
        [name ++ ": " ++ operator ++ ": unary operator expected"] := by decide
  have name : form.1 ∈ ["test", "["] := List.mem_map_of_mem (f := Prod.fst) listed
  have refused := evaluate_misread (host.fileTest context.mode) operator right
    (other operator named)
  rw [run_form_error host _ context form listed _ refused, recorded operator named _ name]

theorem text_comparison_faithful (host : Host) (context : Context) (left right : String) :
    (left ≠ "!" →
      (∀ operator ∈ ["=", "=="], ∀ form ∈ forms [left, operator, right],
        Registry.standard.run host form.1 form.2 context =
          .ok (context.setExitCode (if left = right then 0 else 1))) ∧
      ∀ form ∈ forms [left, "!=", right],
        Registry.standard.run host form.1 form.2 context =
          .ok (context.setExitCode (if left = right then 1 else 0))) ∧
    ∀ operator ∈ ["=", "==", "!="], ∀ form ∈ forms ["!", operator, right],
      Registry.standard.run host form.1 form.2 context = .ok ((context.addErrors
        [form.1 ++ ": " ++ operator ++ ": unary operator expected"]).setExitCode 2) := by
  refine ⟨fun plain => ⟨?_, ?_⟩, ?_⟩
  · intro operator named form listed
    have simple : ∀ operator ∈ ["=", "=="], operator ∉ ["-a", "-o"] := by decide
    have compared : binary left operator right = .ok (left = right) :=
      if_pos (by simpa using named)
    have found := evaluate_binary (host.fileTest context.mode) left operator right plain
      (simple operator named)
    rw [run_form_ok host _ context form listed _ (found.trans compared)]
    simp
  · intro form listed
    have compared : binary left "!=" right = .ok (left ≠ right) := rfl
    have found := evaluate_binary (host.fileTest context.mode) left "!=" right plain (by decide)
    rw [run_form_ok host _ context form listed _ (found.trans compared)]
    by_cases same : left = right <;> simp [same]
  · exact fun operator => run_misread host context operator right

theorem text_comparison_faithful_operators :
    let context := Context.start .simulate .empty true
    let run := fun name words => Registry.standard.run .void name words context
    run "test" ["-a", "=", "-o"] = .ok (context.setExitCode 1) ∧
    run "[" ["]", "==", "]", "]"] = .ok (context.setExitCode 0) ∧
    run "[" ["", "!=", "!", "]"] = .ok (context.setExitCode 0) ∧
    run "test" ["!", "=", "-n"] =
      .ok ((context.addErrors ["test: =: unary operator expected"]).setExitCode 2) := by
  intro context run
  have compared := text_comparison_faithful .void context
  have test : ∀ words, ("test", words) ∈ forms words := by simp [forms]
  have bracket : ∀ words, ("[", words ++ ["]"]) ∈ forms words := by simp [forms]
  refine ⟨?_, ?_, ?_, ?_⟩
  · exact ((compared "-a" "-o").1 (by decide)).1 "=" (by decide) _ (test _)
  · exact ((compared "]" "]").1 (by decide)).1 "==" (by decide) _ (bracket _)
  · exact ((compared "" "!").1 (by decide)).2 _ (bracket _)
  · exact (compared "" "-n").2 "=" (by decide) _ (test _)

theorem negation_not_compared :
    Registry.standard.run .void "test" ["!", "=", "!"] (Context.start .simulate .empty false) =
      .ok (((Context.start .simulate .empty false).addErrors
        ["test: =: unary operator expected"]).setExitCode 2) :=
  run_misread .void _ "=" "!" (by decide) ("test", _) (by simp [forms])

def Spells (operand : String) (n : Int) : Prop :=
  ∃ front text back, operand.toList = front ++ text ++ back ∧
    (∀ c ∈ front, Text.isBlank c = true) ∧ (∀ c ∈ back, Text.isBlank c = true) ∧
    Text.Numeral text n ∧ -2 ^ 63 ≤ n ∧ n < 2 ^ 63

theorem spells_iff (operand : String) (n : Int) : Spells operand n ↔ integer operand = .ok n := by
  have read : integer operand = .ok n ↔ Text.word? 10 (Text.trim operand.toList) = some n := by
    unfold integer
    cases Text.word? 10 (Text.trim operand.toList) <;> simp
  rw [read, Text.word?_eq_some_iff]
  constructor
  · rintro ⟨front, text, back, spelled, before, after, numeral, range⟩
    rw [spelled, Text.trim_append front text back before after numeral.solid]
    exact ⟨numeral, range⟩
  · intro numeral
    obtain ⟨front, back, spelled, before, after⟩ := Text.trim_outer operand.toList
    exact ⟨front, _, back, spelled, before, after, numeral⟩

theorem spells_affirmative (operand : String) (n : Int) (spelled : Spells operand n) :
    operand ≠ "!" := by
  rintro rfl
  have refused : integer "!" = .error (.integerExpected "!") := by rfl
  rw [spells_iff, refused] at spelled
  cases spelled

def relations : List (String × (Int → Int → Prop)) :=
  [("-eq", (· = ·)), ("-ne", (· ≠ ·)), ("-lt", (· < ·)), ("-le", (· ≤ ·)), ("-gt", (· > ·)),
   ("-ge", (· ≥ ·))]

section Relations

variable (operator : String) (relation : Int → Int → Prop)

theorem relations_apart (listed : (operator, relation) ∈ relations) :
    operator ∉ ["!", "=", "==", "!=", "-a", "-o", "-z", "-n", "-e", "-f", "-d"] := by
  have apart : ∀ name ∈ ["-eq", "-ne", "-lt", "-le", "-gt", "-ge"],
      name ∉ ["!", "=", "==", "!=", "-a", "-o", "-z", "-n", "-e", "-f", "-d"] := by decide
  exact apart operator (List.mem_map_of_mem (f := Prod.fst) listed)

theorem relations_named (listed : (operator, relation) ∈ relations) :
    ∃ comparison : Comparison, Comparison.ofName? operator = some comparison ∧
      ∀ m n, comparison.holds m n = true ↔ relation m n := by
  simp only [relations, List.mem_cons, Prod.mk.injEq, List.not_mem_nil, or_false] at listed
  rcases listed with ⟨rfl, rfl⟩ | ⟨rfl, rfl⟩ | ⟨rfl, rfl⟩ | ⟨rfl, rfl⟩ | ⟨rfl, rfl⟩ | ⟨rfl, rfl⟩
  · exact ⟨.eq, rfl, fun m n => by simp [Comparison.holds]⟩
  · exact ⟨.ne, rfl, fun m n => by simp [Comparison.holds]⟩
  · exact ⟨.lt, rfl, fun m n => by simp [Comparison.holds]⟩
  · exact ⟨.le, rfl, fun m n => by simp [Comparison.holds]⟩
  · exact ⟨.gt, rfl, fun m n => by simp [Comparison.holds]⟩
  · exact ⟨.ge, rfl, fun m n => by simp [Comparison.holds]⟩

theorem binary_related (listed : (operator, relation) ∈ relations) (left right : String) :
    ∃ comparison : Comparison, (∀ m n, comparison.holds m n = true ↔ relation m n) ∧
      binary left operator right = (do
        let l ← integer left
        let r ← integer right
        .ok (comparison.holds l r)) := by
  obtain ⟨comparison, named, meaning⟩ := relations_named operator relation listed
  have apart := relations_apart operator relation listed
  simp only [List.mem_cons, List.not_mem_nil, or_false, not_or] at apart
  refine ⟨comparison, meaning, ?_⟩
  simp only [binary, apart, named, or_self, if_false]

variable (files : FileTest → String → Bool) (left right : String)

theorem evaluate_related (listed : (operator, relation) ∈ relations) (m n : Int)
    (first : Spells left m) (second : Spells right n) :
    ∃ answer, evaluate files [left, operator, right] = .ok answer ∧
      (answer = true ↔ relation m n) := by
  obtain ⟨comparison, meaning, compared⟩ := binary_related operator relation listed left right
  have apart := relations_apart operator relation listed
  have simple : operator ∉ ["-a", "-o"] := by simp_all
  refine ⟨comparison.holds m n, ?_, meaning m n⟩
  rw [evaluate_binary files left operator right (spells_affirmative left m first) simple,
    compared, (spells_iff left m).mp first, (spells_iff right n).mp second]
  rfl

theorem evaluate_unrelated (listed : (operator, relation) ∈ relations)
    (unread : ¬ ∃ m n, Spells left m ∧ Spells right n) :
    ∃ failure, evaluate files [left, operator, right] = .error failure := by
  have apart := relations_apart operator relation listed
  by_cases negation : left = "!"
  · have other : operator ∉ ["!", "-z", "-n", "-e", "-f", "-d"] := by simp_all
    exact ⟨_, negation ▸ evaluate_misread files operator right other⟩
  · have simple : operator ∉ ["-a", "-o"] := by simp_all
    obtain ⟨comparison, _, compared⟩ := binary_related operator relation listed left right
    rw [evaluate_binary files left operator right negation simple, compared]
    cases first : integer left with
    | error failure => exact ⟨failure, rfl⟩
    | ok m =>
        cases second : integer right with
        | error failure => exact ⟨failure, rfl⟩
        | ok n =>
            exact absurd ⟨m, n, (spells_iff left m).mpr first, (spells_iff right n).mpr second⟩
              unread

end Relations

theorem one_of_three (succeeds : String → Prop) (m n : Int) (less : succeeds "-lt" ↔ m < n)
    (equal : succeeds "-eq" ↔ m = n) (greater : succeeds "-gt" ↔ m > n) :
    ∃! operator, operator ∈ ["-lt", "-eq", "-gt"] ∧ succeeds operator := by
  have either : ∀ operator, operator ∈ ["-lt", "-eq", "-gt"] ∧ succeeds operator ↔
      operator = "-lt" ∧ m < n ∨ operator = "-eq" ∧ m = n ∨ operator = "-gt" ∧ m > n := by
    intro operator
    rw [← less, ← equal, ← greater]
    simp only [List.mem_cons, List.not_mem_nil, or_false]
    constructor
    · rintro ⟨rfl | rfl | rfl, succeeded⟩ <;> simp [succeeded]
    · rintro (⟨rfl, succeeded⟩ | ⟨rfl, succeeded⟩ | ⟨rfl, succeeded⟩) <;> simp [succeeded]
  simp only [either]
  rcases lt_trichotomy m n with order | order | order
  · refine ⟨"-lt", .inl ⟨rfl, order⟩, fun other also => ?_⟩
    rcases also with ⟨rfl, _⟩ | ⟨_, same⟩ | ⟨_, more⟩
    · rfl
    · omega
    · omega
  · refine ⟨"-eq", .inr (.inl ⟨rfl, order⟩), fun other also => ?_⟩
    rcases also with ⟨_, fewer⟩ | ⟨rfl, _⟩ | ⟨_, more⟩
    · omega
    · rfl
    · omega
  · refine ⟨"-gt", .inr (.inr ⟨rfl, order⟩), fun other also => ?_⟩
    rcases also with ⟨_, fewer⟩ | ⟨_, same⟩ | ⟨rfl, _⟩
    · omega
    · omega
    · rfl

theorem integer_comparison_exact (host : Host) (context : Context) (left right : String) :
    let test := fun operator => Registry.standard.run host "test" [left, operator, right] context
    (∀ m n, Spells left m → Spells right n →
      (∀ operator relation, (operator, relation) ∈ relations →
        (relation m n → test operator = .ok (context.setExitCode 0)) ∧
        (¬ relation m n → test operator = .ok (context.setExitCode 1))) ∧
      ∃! operator, operator ∈ ["-lt", "-eq", "-gt"] ∧
        ∃ after, test operator = .ok after ∧ after.exitCode = 0) ∧
    ((¬ ∃ m n, Spells left m ∧ Spells right n) →
      ∀ operator relation, (operator, relation) ∈ relations → ∃ messages, messages ≠ [] ∧
        test operator = .ok ((context.addErrors messages).setExitCode 2)) := by
  intro test
  have asked : ∀ words, ("test", words) ∈ forms words := by simp [forms]
  constructor
  · intro m n first second
    have ran : ∀ operator relation, (operator, relation) ∈ relations →
        (relation m n → test operator = .ok (context.setExitCode 0)) ∧
        (¬ relation m n → test operator = .ok (context.setExitCode 1)) := by
      intro operator relation listed
      obtain ⟨answer, found, meaning⟩ := evaluate_related operator relation
        (host.fileTest context.mode) left right listed m n first second
      have finished := run_form_ok host _ context _ (asked _) answer found
      constructor
      · intro related
        simpa [meaning.mpr related] using finished
      · intro unrelated
        simpa [mt meaning.mp unrelated] using finished
    have succeeds : ∀ operator relation, (operator, relation) ∈ relations →
        ((∃ after, test operator = .ok after ∧ after.exitCode = 0) ↔ relation m n) := by
      intro operator relation listed
      obtain ⟨zero, one⟩ := ran operator relation listed
      constructor
      · rintro ⟨after, done, code⟩
        by_contra unrelated
        rw [one unrelated] at done
        cases done
        simp [Context.setExitCode] at code
      · exact fun related => ⟨_, zero related, rfl⟩
    exact ⟨ran, one_of_three _ m n (succeeds "-lt" _ (by simp [relations]))
      (succeeds "-eq" _ (by simp [relations])) (succeeds "-gt" _ (by simp [relations]))⟩
  · intro unread operator relation listed
    obtain ⟨failure, found⟩ := evaluate_unrelated operator relation (host.fileTest context.mode)
      left right listed unread
    exact ⟨_, Text.linesOf_ne_nil _ (by simp),
      run_form_error host _ context _ (asked _) failure found⟩

theorem integer_comparison_exact_lowest :
    let context := Context.start .capture .empty false
    let test := fun left operator right =>
      Registry.standard.run .void "test" [left, operator, right] context
    Spells "\u2003-9223372036854775808\n" (-2 ^ 63) ∧ Spells "+0007" 7 ∧
    test "\u2003-9223372036854775808\n" "-lt" "+0007" = .ok (context.setExitCode 0) ∧
    test "\u2003-9223372036854775808\n" "-ge" "+0007" = .ok (context.setExitCode 1) ∧
    ∃ messages, messages ≠ [] ∧ test "+0007" "-lt" "9223372036854775808" =
      .ok ((context.addErrors messages).setExitCode 2) := by
  have lowest : Spells "\u2003-9223372036854775808\n" (-2 ^ 63) := (spells_iff _ _).mpr (by rfl)
  have seven : Spells "+0007" 7 := (spells_iff _ _).mpr (by rfl)
  have unread : integer "9223372036854775808" =
      .error (.integerExpected "9223372036854775808") := by rfl
  intro context test
  have ordered := ((integer_comparison_exact .void context _ _).1 _ _ lowest seven).1
  refine ⟨lowest, seven, (ordered "-lt" (· < ·) (by simp [relations])).1 (by decide),
    (ordered "-ge" (· ≥ ·) (by simp [relations])).2 (by decide), ?_⟩
  refine (integer_comparison_exact .void context _ _).2 ?_ "-lt" (· < ·) (by simp [relations])
  rintro ⟨m, n, _, spelled⟩
  rw [spells_iff, unread] at spelled
  cases spelled

end ShellWalk.Test
