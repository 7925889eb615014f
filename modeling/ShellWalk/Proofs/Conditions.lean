import ShellWalk.Proofs.Builtins

set_option autoImplicit false

namespace ShellWalk.Test

inductive Connective where
  | both
  | either
deriving DecidableEq, Repr

def Connective.word : Connective → String
  | .both => "-a"
  | .either => "-o"

structure Primary where
  first : String
  rest : List String
  affirmative : first ≠ "!"
  noBoth : "-a" ∉ first :: rest
  noEither : "-o" ∉ first :: rest

namespace Primary

def words (primary : Primary) : List String := primary.first :: primary.rest

def value (files : FileTest → String → Bool) (primary : Primary) : Except Failure Bool :=
  evaluate files primary.words

theorem words_ne_nil (primary : Primary) : primary.words ≠ [] := List.cons_ne_nil _ _

theorem undivided (primary : Primary) : "-o" ∉ primary.words := primary.noEither

theorem head?_ne (primary : Primary) (back : List String) :
    (primary.words ++ back).head? ≠ some "!" :=
  fun negated => primary.affirmative (Option.some.inj negated)

end Primary

inductive Condition where
  | last (primary : Primary)
  | next (primary : Primary) (connective : Connective) (rest : Condition)

namespace Condition

def words : Condition → List String
  | .last primary => primary.words
  | .next primary connective rest => primary.words ++ connective.word :: rest.words

def primaries : Condition → List Primary
  | .last primary => [primary]
  | .next primary _ rest => primary :: rest.primaries

def groups : Condition → List (List Primary)
  | .last primary => [[primary]]
  | .next primary .both rest => rest.groups.modifyHead (primary :: ·)
  | .next primary .either rest => [primary] :: rest.groups

theorem words_ne_nil (condition : Condition) : condition.words ≠ [] := by
  cases condition <;> simp [words, Primary.words]

theorem groups_ne_nil (condition : Condition) : condition.groups ≠ [] := by
  induction condition with
  | last primary => simp [groups]
  | next primary connective rest ih => cases connective <;> simp [groups, ih]

theorem flatten_groups (condition : Condition) :
    condition.groups.flatten = condition.primaries := by
  induction condition with
  | last primary => rfl
  | next primary connective rest ih =>
      cases connective with
      | either => simp [groups, primaries, ih]
      | both =>
          obtain ⟨group, others, same⟩ := List.exists_cons_of_ne_nil rest.groups_ne_nil
          rw [same] at ih
          simpa [groups, primaries, same] using ih

theorem groups_behind_nothing (condition : Condition) :
    condition.groups.modifyHead ([] ++ ·) = condition.groups :=
  congrFun List.modifyHead_id condition.groups

end Condition

def combined (combine : Bool → Bool → Bool) (left right : Except Failure Bool) :
    Except Failure Bool := do
  let l ← left
  let r ← right
  .ok (combine l r)

section Splitting

variable (connective : String)

theorem splitAt?_found (first : String) (front back : List String) (absent : connective ∉ front)
    (present : back ≠ []) :
    splitAt? connective (first :: (front ++ connective :: back)) = some (first :: front, back) := by
  have passed : ∀ word ∈ front, decide (word ≠ connective) = true := by
    intro word member
    have other : word ≠ connective := fun same => absent (same ▸ member)
    simp [other]
  obtain ⟨next, others, rfl⟩ := List.exists_cons_of_ne_nil present
  rw [splitAt?, List.dropWhile_append_of_pos passed, List.takeWhile_append_of_pos passed]
  simp

theorem splitAt?_absent (first : String) (rest : List String)
    (absent : connective ∉ rest.dropLast) :
    splitAt? connective (first :: rest) = none := by
  rw [splitAt?]
  split
  · rename_i found next others ahead
    have whole := List.takeWhile_append_dropWhile (p := (· ≠ connective)) (l := rest)
    have some : rest.dropWhile (· ≠ connective) ≠ [] := ahead ▸ List.cons_ne_nil _ _
    have refused := List.head_dropWhile_not (· ≠ connective) some
    simp only [ahead, List.head_cons, decide_eq_false_iff_not, Decidable.not_not] at refused
    refine absurd ?_ absent
    rw [← whole, ahead, List.dropLast_append_cons, List.dropLast_cons_cons, refused]
    simp
  · rfl

end Splitting

section Evaluation

variable (files : FileTest → String → Bool)

theorem evaluate_not (words : List String) (present : words ≠ []) :
    evaluate files ("!" :: words) = (evaluate files words).map (!·) := by
  obtain ⟨second, others, rfl⟩ := List.exists_cons_of_ne_nil present
  rw [evaluate, if_pos rfl]

theorem evaluate_split (first : String) (rest : List String) (plain : first ≠ "!")
    (present : rest ≠ []) :
    evaluate files (first :: rest) =
      match splitAt? "-o" (first :: rest) with
      | some (left, right) => combined (· || ·) (evaluate files left) (evaluate files right)
      | none =>
          match splitAt? "-a" (first :: rest) with
          | some (left, right) => combined (· && ·) (evaluate files left) (evaluate files right)
          | none => primary files (first :: rest) := by
  obtain ⟨second, others, rfl⟩ := List.exists_cons_of_ne_nil present
  rw [evaluate, if_neg plain]
  split
  · rename_i left right found
    rw [found]
    rfl
  · rename_i single
    rw [single]
    split
    · rename_i left right found
      rw [found]
      rfl
    · rename_i whole
      rw [whole]

theorem evaluate_either (front back : List String) (opened : front ≠ [])
    (plain : front.head? ≠ some "!") (absent : "-o" ∉ front) (present : back ≠ []) :
    evaluate files (front ++ "-o" :: back) =
      combined (· || ·) (evaluate files front) (evaluate files back) := by
  obtain ⟨first, others, rfl⟩ := List.exists_cons_of_ne_nil opened
  have affirmative : first ≠ "!" := by simpa using plain
  have later : "-o" ∉ others := fun member => absent (List.mem_cons_of_mem _ member)
  rw [List.cons_append, evaluate_split files first _ affirmative (by simp),
    splitAt?_found "-o" first others back later present]

theorem evaluate_both (primary : Primary) (back : List String) (absent : "-o" ∉ back)
    (present : back ≠ []) :
    evaluate files (primary.words ++ "-a" :: back) =
      combined (· && ·) (primary.value files) (evaluate files back) := by
  have undivided : "-o" ∉ (primary.rest ++ "-a" :: back).dropLast := by
    intro member
    have inside := List.mem_append.mp (List.dropLast_subset _ member)
    rcases inside with here | there
    · exact primary.noEither (List.mem_cons_of_mem _ here)
    · simp [absent] at there
  have later : "-a" ∉ primary.rest := fun member => primary.noBoth (List.mem_cons_of_mem _ member)
  rw [Primary.words, List.cons_append, evaluate_split files _ _ primary.affirmative (by simp),
    splitAt?_absent "-o" _ _ undivided, splitAt?_found "-a" _ _ back later present]
  rfl

theorem evaluate_plain (first : String) (rest : List String) (plain : first ≠ "!")
    (present : rest ≠ []) (noEither : "-o" ∉ rest.dropLast) (noBoth : "-a" ∉ rest.dropLast) :
    evaluate files (first :: rest) = primary files (first :: rest) := by
  rw [evaluate_split files first rest plain present, splitAt?_absent "-o" first rest noEither,
    splitAt?_absent "-a" first rest noBoth]

theorem evaluate_primary (one : Primary) (present : one.rest ≠ []) :
    evaluate files one.words = primary files one.words := by
  have inside : ∀ word ∈ one.rest.dropLast, word ∈ one.first :: one.rest := fun word member =>
    List.mem_cons_of_mem _ (List.dropLast_subset _ member)
  exact evaluate_plain files _ _ one.affirmative present
    (fun member => one.noEither (inside _ member)) (fun member => one.noBoth (inside _ member))

end Evaluation

section Settling

variable (files : FileTest → String → Bool)

def failure? : Except Failure Bool → Option Failure
  | .ok _ => none
  | .error failure => some failure

def holds : Except Failure Bool → Bool
  | .ok answer => answer
  | .error _ => false

def settled (primaries : List Primary) (answer : Bool) : Except Failure Bool :=
  match primaries.findSome? fun primary => failure? (primary.value files) with
  | some failure => .error failure
  | none => .ok answer

theorem settled_single (primary : Primary) :
    settled files [primary] (holds (primary.value files)) = primary.value files := by
  unfold settled
  cases found : primary.value files with
  | error failure => simp [found, failure?]
  | ok answer => simp [found, failure?, holds]

theorem combined_settled (combine : Bool → Bool → Bool) (front back : List Primary) (l r : Bool) :
    combined combine (settled files front l) (settled files back r) =
      settled files (front ++ back) (combine l r) := by
  unfold settled
  rw [List.findSome?_append]
  cases front.findSome? fun primary => failure? (primary.value files) with
  | some failure => rfl
  | none =>
      cases back.findSome? fun primary => failure? (primary.value files) with
      | some failure => rfl
      | none => rfl

theorem settled_error (front back : List Primary) (primary : Primary) (failure : Failure)
    (answer : Bool) (earlier : ∀ other ∈ front, ∃ answer, other.value files = .ok answer)
    (failed : primary.value files = .error failure) :
    settled files (front ++ primary :: back) answer = .error failure := by
  have found : (front ++ primary :: back).findSome?
      (fun primary => failure? (primary.value files)) = some failure := by
    refine List.findSome?_eq_some_iff.mpr ⟨front, primary, back, rfl, by rw [failed]; rfl, ?_⟩
    intro other member
    obtain ⟨answer, fine⟩ := earlier other member
    rw [fine]
    rfl
  rw [settled, found]

theorem settled_ok (primaries : List Primary) (answer : Bool)
    (fine : ∀ primary ∈ primaries, ∃ answer, primary.value files = .ok answer) :
    settled files primaries answer = .ok answer := by
  have none : primaries.findSome? (fun primary => failure? (primary.value files)) = none := by
    refine List.findSome?_eq_none_iff.mpr fun primary member => ?_
    obtain ⟨answer, found⟩ := fine primary member
    rw [found]
    rfl
  rw [settled, none]

end Settling

section Conditions

variable (files : FileTest → String → Bool)

def lead (primaries : List Primary) : List String :=
  primaries.flatMap fun primary => primary.words ++ ["-a"]

theorem lead_cons (primary : Primary) (primaries : List Primary) (words : List String) :
    lead (primary :: primaries) ++ words = primary.words ++ "-a" :: (lead primaries ++ words) := by
  simp [lead]

theorem lead_concat (primaries : List Primary) (primary : Primary) (words : List String) :
    lead (primaries ++ [primary]) ++ words =
      lead primaries ++ (primary.words ++ "-a" :: words) := by
  simp [lead]

theorem lead_undivided (primaries : List Primary) (primary : Primary) :
    "-o" ∉ lead primaries ++ primary.words := by
  simp [lead, Primary.undivided]

theorem lead_affirmative (primaries : List Primary) (primary : Primary) :
    (lead primaries ++ primary.words).head? ≠ some "!" := by
  cases primaries with
  | nil => exact primary.head?_ne []
  | cons opening others =>
      rw [lead_cons]
      exact opening.head?_ne _

theorem evaluate_conjunction (primaries : List Primary) (primary : Primary) :
    evaluate files (lead primaries ++ primary.words) = settled files (primaries ++ [primary])
      ((primaries ++ [primary]).all fun primary => holds (primary.value files)) := by
  induction primaries with
  | nil =>
      have single := settled_single files primary
      simpa [lead, Primary.value] using single.symm
  | cons opening others ih =>
      have present : lead others ++ primary.words ≠ [] := by simp [Primary.words]
      rw [lead_cons, evaluate_both files opening _ (lead_undivided others primary) present, ih,
        ← settled_single files opening, combined_settled]
      simp

theorem evaluate_behind (condition : Condition) (front : List Primary) :
    evaluate files (lead front ++ condition.words) =
      settled files (front ++ condition.primaries)
        ((condition.groups.modifyHead (front ++ ·)).any fun group =>
          group.all fun primary => holds (primary.value files)) := by
  -- The induction carries along the primaries in front: they belong to the first group of the rest.
  induction condition generalizing front with
  | last primary =>
      have conjunction := evaluate_conjunction files front primary
      simpa [Condition.words, Condition.primaries, Condition.groups] using conjunction
  | next primary connective rest ih =>
      cases connective with
      | both =>
          have onward := ih (front ++ [primary])
          rw [lead_concat] at onward
          simpa [Condition.words, Condition.primaries, Condition.groups, Connective.word,
            List.modifyHead_modifyHead, Function.comp_def] using onward
      | either =>
          have opened : lead front ++ primary.words ≠ [] := by simp [Primary.words]
          have divided := evaluate_either files _ rest.words opened
            (lead_affirmative front primary) (lead_undivided front primary) rest.words_ne_nil
          have later := ih []
          rw [rest.groups_behind_nothing, lead, List.flatMap_nil, List.nil_append,
            List.nil_append] at later
          rw [evaluate_conjunction, later, combined_settled] at divided
          simpa [Condition.words, Condition.primaries, Condition.groups, Connective.word]
            using divided

theorem evaluate_condition (condition : Condition) :
    evaluate files condition.words = settled files condition.primaries (condition.groups.any
      fun group => group.all fun primary => holds (primary.value files)) := by
  have whole := evaluate_behind files condition []
  rwa [condition.groups_behind_nothing] at whole

end Conditions

def forms (words : List String) : List (String × List String) :=
  [("test", words), ("[", words ++ ["]"])]

section Commands

variable (host : Host) (words : List String) (context : Context) (form : String × List String)

theorem run_form (listed : form ∈ forms words) :
    Registry.standard.run host form.1 form.2 context =
      .ok ((verdict form.1 (evaluate (host.fileTest context.mode) words)).apply context) := by
  simp only [forms, List.mem_cons, List.not_mem_nil, or_false] at listed
  rcases listed with rfl | rfl
  · rfl
  · change bracketHandler host "[" (words ++ ["]"]) context = _
    rw [bracketHandler, List.getLast?_concat, if_pos rfl, List.dropLast_concat]
    rfl

theorem run_form_ok (listed : form ∈ forms words) (answer : Bool)
    (found : evaluate (host.fileTest context.mode) words = .ok answer) :
    Registry.standard.run host form.1 form.2 context =
      .ok (context.setExitCode (if answer then 0 else 1)) := by
  have silent : Text.linesOf "" = [] := rfl
  rw [run_form host words context form listed, found]
  cases answer <;>
    simp [verdict, Completion.apply, Completion.silent, silent, Context.addOutput,
      Context.addErrors]

theorem run_form_error (listed : form ∈ forms words) (failure : Failure)
    (found : evaluate (host.fileTest context.mode) words = .error failure) :
    Registry.standard.run host form.1 form.2 context = .ok ((context.addErrors
      (Text.linesOf (form.1 ++ ": " ++ failure.message ++ "\n"))).setExitCode 2) := by
  have silent : Text.linesOf "" = [] := rfl
  rw [run_form host words context form listed, found]
  simp [verdict, Completion.apply, silent, Context.addOutput]

end Commands

theorem condition_or_of_ands (host : Host) (context : Context) :
    let files := host.fileTest context.mode
    (∀ condition : Condition,
      (∀ front primary back failure, condition.primaries = front ++ primary :: back →
        (∀ earlier ∈ front, ∃ answer, evaluate files earlier.words = .ok answer) →
        evaluate files primary.words = .error failure →
        evaluate files condition.words = .error failure) ∧
      ∀ value : Primary → Bool,
        (∀ primary ∈ condition.primaries, evaluate files primary.words = .ok (value primary)) →
        evaluate files condition.words =
          .ok (condition.groups.any fun group => group.all value)) ∧
    ∀ words, ∀ form ∈ forms words,
      (∀ answer, evaluate files words = .ok answer →
        Registry.standard.run host form.1 form.2 context =
          .ok (context.setExitCode (if answer then 0 else 1))) ∧
      ∀ failure, evaluate files words = .error failure →
        Registry.standard.run host form.1 form.2 context = .ok ((context.addErrors
          (Text.linesOf (form.1 ++ ": " ++ failure.message ++ "\n"))).setExitCode 2) := by
  intro files
  refine ⟨fun condition => ⟨?_, ?_⟩, fun words form listed => ⟨?_, ?_⟩⟩
  · intro front primary back failure parts earlier failed
    rw [evaluate_condition, parts]
    exact settled_error files front back primary failure _ earlier failed
  · intro value fine
    have known : ∀ group ∈ condition.groups, ∀ primary ∈ group,
        holds (primary.value files) = value primary := by
      intro group here primary member
      have inside := List.mem_flatten_of_mem here member
      rw [condition.flatten_groups] at inside
      rw [Primary.value, fine primary inside, holds]
    have same : (condition.groups.any fun group =>
        group.all fun primary => holds (primary.value files)) =
          condition.groups.any fun group => group.all value := by
      rw [Bool.eq_iff_iff, List.any_eq_true, List.any_eq_true]
      refine exists_congr fun group => and_congr_right fun here => ?_
      rw [List.all_eq_true, List.all_eq_true]
      exact forall₂_congr fun primary member => by rw [known group here primary member]
    rw [evaluate_condition, same, settled_ok]
    exact fun primary member => ⟨_, fine primary member⟩
  · exact run_form_ok host words context form listed
  · exact run_form_error host words context form listed

theorem condition_or_of_ands_mixed :
    let context := Context.start .capture .empty false
    let files := Host.void.fileTest context.mode
    let unlike : Primary := ⟨"x", ["=", "y"], by decide, by decide, by decide⟩
    let present : Primary := ⟨"-n", ["z"], by decide, by decide, by decide⟩
    let greater : Primary := ⟨"3", ["-gt", "-4"], by decide, by decide, by decide⟩
    let strange : Primary := ⟨"1", ["-eq", "one"], by decide, by decide, by decide⟩
    let crowded : Primary := ⟨"a", ["b", "c", "d"], by decide, by decide, by decide⟩
    let sound := Condition.next unlike .both (.next present .either (.last greater))
    let faulty := Condition.next greater .either (.next strange .both (.last crowded))
    evaluate files sound.words = .ok true ∧
    evaluate files faulty.words = .error (.integerExpected "one") ∧
    Registry.standard.run .void "[" (sound.words ++ ["]"]) context =
      .ok (context.setExitCode 0) ∧
    Registry.standard.run .void "[" (faulty.words ++ ["]"]) context =
      .ok ((context.addErrors ["[: one: integer expression expected"]).setExitCode 2) := by
  have compared : binary "3" "-gt" "-4" = .ok true := by rfl
  have refused : binary "1" "-eq" "one" = .error (.integerExpected "one") := by rfl
  have recorded : Text.linesOf ("[" ++ ": " ++ (Failure.integerExpected "one").message ++ "\n") =
      ["[: one: integer expression expected"] := by rfl
  intro context files unlike present greater strange crowded sound faulty
  obtain ⟨conditions, commands⟩ := condition_or_of_ands .void context
  have first : evaluate files unlike.words = .ok false :=
    evaluate_primary files unlike (by decide)
  have second : evaluate files present.words = .ok true :=
    evaluate_primary files present (by decide)
  have third : evaluate files greater.words = .ok true :=
    (evaluate_primary files greater (by decide)).trans compared
  have fourth : evaluate files strange.words = .error (.integerExpected "one") :=
    (evaluate_primary files strange (by decide)).trans refused
  have disjunction : evaluate files sound.words = .ok true :=
    (conditions sound).2 (fun primary => primary.first ≠ "x") (by
      intro primary member
      simp only [sound, Condition.primaries, List.mem_cons, List.not_mem_nil, or_false] at member
      rcases member with rfl | rfl | rfl
      · exact first
      · exact second
      · exact third)
  have error : evaluate files faulty.words = .error (.integerExpected "one") :=
    (conditions faulty).1 [greater] strange [crowded] _ rfl
      (fun earlier member => ⟨true, List.mem_singleton.mp member ▸ third⟩) fourth
  have asked : ∀ words, ("[", words ++ ["]"]) ∈ forms words := fun words => by simp [forms]
  refine ⟨disjunction, error, ?_, ?_⟩
  · exact (commands sound.words _ (asked _)).1 true disjunction
  · have ran := (commands faulty.words _ (asked _)).2 _ error
    rwa [recorded] at ran

section Negation

variable (files : FileTest → String → Bool) (one : Primary)

theorem evaluate_not_either (rest : List String) (p r : Bool) (present : rest ≠ [])
    (first : evaluate files one.words = .ok p) (second : evaluate files rest = .ok r) :
    evaluate files ("!" :: (one.words ++ "-o" :: rest)) = .ok (!(p || r)) := by
  rw [evaluate_not files _ (by simp), evaluate_either files one.words rest one.words_ne_nil
    (by simpa using one.head?_ne []) one.undivided present, first, second]
  rfl

theorem evaluate_not_both (other : Primary) (p q : Bool)
    (first : evaluate files one.words = .ok p) (second : evaluate files other.words = .ok q) :
    evaluate files ("!" :: (one.words ++ "-a" :: other.words)) = .ok (!(p && q)) := by
  rw [evaluate_not files _ (by simp), evaluate_both files one other.words other.undivided
    other.words_ne_nil, Primary.value, first, second]
  rfl

end Negation

-- Behind a conjunction it is a disjunction that ends the negation; at the start nothing does.
theorem negation_reaches_to_the_end (files : FileTest → String → Bool) (one other : Primary)
    (rest : List String) (p q r : Bool) (present : rest ≠ [])
    (first : evaluate files one.words = .ok p) (second : evaluate files other.words = .ok q)
    (third : evaluate files rest = .ok r) :
    evaluate files ("!" :: (one.words ++ "-o" :: rest)) = .ok (!(p || r)) ∧
    evaluate files ("!" :: (one.words ++ "-a" :: other.words)) = .ok (!(p && q)) ∧
    (evaluate files ("!" :: (one.words ++ "-o" :: rest)) = .ok (!p || r) ↔ r = false) ∧
    (evaluate files ("!" :: (one.words ++ "-a" :: other.words)) = .ok (!p && q) ↔ q = true) ∧
    evaluate files (other.words ++ "-a" :: "!" :: (one.words ++ "-o" :: rest)) =
      .ok (q && !p || r) := by
  have either := evaluate_not_either files one rest p r present first third
  have both := evaluate_not_both files one other p q first second
  have front : evaluate files (other.words ++ "-a" :: "!" :: one.words) = .ok (q && !p) := by
    rw [evaluate_both files other _ (by simp [one.undivided]) (List.cons_ne_nil _ _),
      Primary.value, second, evaluate_not files _ one.words_ne_nil, first]
    rfl
  have inner : evaluate files (other.words ++ "-a" :: "!" :: (one.words ++ "-o" :: rest)) =
      .ok (q && !p || r) := by
    have split := evaluate_either files (other.words ++ "-a" :: "!" :: one.words) rest (by simp)
      (other.head?_ne _) (by simp [one.undivided, other.undivided]) present
    rw [front, third, List.append_assoc] at split
    exact split
  refine ⟨either, both, ?_, ?_, inner⟩
  · rw [either]
    cases p <;> cases r <;> simp
  · rw [both]
    cases p <;> cases q <;> simp

theorem negation_reaches_to_the_end_chained :
    let files := Host.void.fileTest .simulate
    let one : Primary := ⟨"a", ["=", "a"], by decide, by decide, by decide⟩
    let other : Primary := ⟨"-n", ["x"], by decide, by decide, by decide⟩
    let rest := ["", "-o", "y"]
    evaluate files ("!" :: (one.words ++ "-o" :: rest)) = .ok false ∧
    evaluate files ("!" :: (one.words ++ "-a" :: other.words)) = .ok false ∧
    evaluate files (other.words ++ "-a" :: "!" :: (one.words ++ "-o" :: rest)) = .ok true := by
  intro files one other rest
  have first : evaluate files one.words = .ok true :=
    evaluate_primary files one (by decide)
  have second : evaluate files other.words = .ok true :=
    evaluate_primary files other (by decide)
  have third : evaluate files rest = .ok true := by
    change evaluate files ([""] ++ "-o" :: ["y"]) = _
    rw [evaluate_either files [""] ["y"] (by decide) (by decide) (by decide) (by decide)]
    simp [evaluate, combined, bind, Except.bind]
  obtain ⟨either, both, _, _, inner⟩ :=
    negation_reaches_to_the_end files one other rest true true true (by decide) first second third
  exact ⟨either, both, inner⟩

theorem negation_not_tight :
    let files := Host.void.fileTest .simulate
    let context := Context.start .simulate .empty false
    evaluate files ["a", "=", "a"] = .ok true ∧ evaluate files ["b", "=", "b"] = .ok true ∧
    evaluate files ["!", "a", "=", "a", "-o", "b", "=", "b"] ≠ .ok (!true || true) ∧
    evaluate files ["a", "=", "b"] = .ok false ∧ evaluate files ["b", "=", "c"] = .ok false ∧
    evaluate files ["!", "a", "=", "b", "-a", "b", "=", "c"] ≠ .ok (!false && false) ∧
    Registry.standard.run .void "test" ["!", "a", "=", "a", "-o", "b", "=", "b"] context =
      .ok (context.setExitCode 1) := by
  intro files context
  have compared : ∀ left right, left ≠ "!" →
      evaluate files [left, "=", right] = .ok (left = right) := fun left right plain =>
    evaluate_plain files left ["=", right] plain (by simp) (by simp) (by simp)
  have first : evaluate files ["a", "=", "a"] = .ok true := compared "a" "a" (by decide)
  have second : evaluate files ["b", "=", "b"] = .ok true := compared "b" "b" (by decide)
  have third : evaluate files ["a", "=", "b"] = .ok false := compared "a" "b" (by decide)
  have fourth : evaluate files ["b", "=", "c"] = .ok false := compared "b" "c" (by decide)
  have disjunction : evaluate files ["!", "a", "=", "a", "-o", "b", "=", "b"] = .ok false :=
    evaluate_not_either files ⟨"a", ["=", "a"], by decide, by decide, by decide⟩ _ _ _
      (by decide) first second
  have conjunction : evaluate files ["!", "a", "=", "b", "-a", "b", "=", "c"] = .ok true :=
    evaluate_not_both files ⟨"a", ["=", "b"], by decide, by decide, by decide⟩
      ⟨"b", ["=", "c"], by decide, by decide, by decide⟩ _ _ third fourth
  refine ⟨first, second, by simp [disjunction], third, fourth, by simp [conjunction], ?_⟩
  exact run_form_ok .void _ context ("test", _) (by simp [forms]) false disjunction

end ShellWalk.Test
