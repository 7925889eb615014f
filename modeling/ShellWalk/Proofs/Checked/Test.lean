import ShellWalk.Command.Test
import ShellWalk.Proofs.Checked.Slice

set_option autoImplicit false

namespace ShellWalk.Test

open Checked

def placeOf? (connective : String) (words : List String) : Option Nat :=
  ((words.drop 1).findIdx? (· = connective)).map (· + 1)

def halvesAt (connective : String) (words : List String) :
    Except String (Option (List String × List String)) :=
  match placeOf? connective words with
  | none => .ok none
  | some place =>
      if place + 1 < words.length then do
        let left ← upTo words place
        let right ← onward words (place + 1)
        .ok (some (left, right))
      else .ok none

theorem findIdx?_eq (connective : String) (words : List String) :
    words.findIdx? (· = connective) =
      if words.dropWhile (· ≠ connective) = [] then none
      else some (words.takeWhile (· ≠ connective)).length := by
  induction words with
  | nil => rfl
  | cons word rest ih =>
      by_cases same : word = connective
      · simp [List.findIdx?_cons, same]
      · have skipped : (word :: rest).dropWhile (· ≠ connective) =
            rest.dropWhile (· ≠ connective) := List.dropWhile_cons_of_pos (by simp [same])
        have taken : (word :: rest).takeWhile (· ≠ connective) =
            word :: rest.takeWhile (· ≠ connective) := List.takeWhile_cons_of_pos (by simp [same])
        rw [List.findIdx?_cons, ih, skipped, taken, if_neg (by simp [same])]
        split <;> rfl

theorem halvesAt_ok (connective : String) (words : List String) :
    halvesAt connective words = .ok (splitAt? connective words) := by
  cases words with
  | nil => rfl
  | cons first rest =>
      have whole := List.takeWhile_append_dropWhile (p := (· ≠ connective)) (l := rest)
      unfold halvesAt placeOf?
      rw [splitAt?, List.drop_one, List.tail_cons, findIdx?_eq]
      generalize rest.takeWhile (· ≠ connective) = front at whole ⊢
      generalize rest.dropWhile (· ≠ connective) = back at whole ⊢
      subst whole
      cases back with
      | nil => rfl
      | cons found more =>
          cases more with
          | nil => simp
          | cons next others =>
              have place : front.length + 1 + 1 <
                  (first :: (front ++ found :: next :: others)).length := by simp
              simp only [List.cons_ne_nil, if_false, Option.map_some, if_pos place]
              rw [upTo_ok _ _ (by omega), onward_ok _ _ (by omega)]
              simp [bind, Except.bind]

theorem onward_length (words rest : List String) (start : Nat)
    (sliced : onward words start = .ok rest) : rest.length + start = words.length := by
  unfold onward at sliced
  split at sliced
  · cases sliced
    simp only [List.length_drop]
    omega
  · cases sliced

theorem halvesAt_length (connective : String) (words left right : List String)
    (halved : halvesAt connective words = .ok (some (left, right))) :
    left.length < words.length ∧ right.length < words.length := by
  rw [halvesAt_ok] at halved
  exact splitAt?_length (Except.ok.inj halved)

def joined (combine : Bool → Bool → Bool) (left right : Except String (Except Failure Bool)) :
    Except String (Except Failure Bool) := do
  match ← left with
  | .error failure => .ok (.error failure)
  | .ok l =>
      let r ← right
      .ok (r.map (combine l))

def evaluateAt (files : FileTest → String → Bool) (words : List String) :
    Except String (Except Failure Bool) :=
  if words.length = 1 then do
    let word ← item words 0
    .ok (.ok (word ≠ ""))
  else do
    let first ← item words 0
    if first = "!" then
      match _ : onward words 1 with
      | .error message => .error message
      | .ok rest => do
          let value ← evaluateAt files rest
          .ok (value.map (!·))
    else
      match _ : halvesAt "-o" words with
      | .error message => .error message
      | .ok (some (left, right)) =>
          joined (· || ·) (evaluateAt files left) (evaluateAt files right)
      | .ok none =>
          match _ : halvesAt "-a" words with
          | .error message => .error message
          | .ok (some (left, right)) =>
              joined (· && ·) (evaluateAt files left) (evaluateAt files right)
          | .ok none => .ok (primary files words)
termination_by words.length
decreasing_by
  · have shorter := onward_length _ _ _ (by assumption)
    omega
  · exact (halvesAt_length _ _ _ _ (by assumption)).1
  · exact (halvesAt_length _ _ _ _ (by assumption)).2
  · exact (halvesAt_length _ _ _ _ (by assumption)).1
  · exact (halvesAt_length _ _ _ _ (by assumption)).2

theorem splitAt?_nonempty (connective : String) (words left right : List String)
    (found : splitAt? connective words = some (left, right)) : left ≠ [] ∧ right ≠ [] := by
  cases words with
  | nil => cases found
  | cons first rest =>
      rw [splitAt?] at found
      split at found
      · cases found
        exact ⟨List.cons_ne_nil _ _, List.cons_ne_nil _ _⟩
      · cases found

theorem evaluateAt_single (files : FileTest → String → Bool) (word : String) :
    evaluateAt files [word] = .ok (.ok (word ≠ "")) := by
  rw [evaluateAt]
  rfl

theorem evaluateAt_not (files : FileTest → String → Bool) (second : String) (others : List String)
    (value : Except Failure Bool) (inner : evaluateAt files (second :: others) = .ok value) :
    evaluateAt files ("!" :: second :: others) = .ok (value.map (!·)) := by
  have rest : onward ("!" :: second :: others) 1 = .ok (second :: others) :=
    onward_ok _ 1 (by simp)
  rw [evaluateAt, if_neg (by simp)]
  simp only [item, List.getElem?_cons_zero, bind, Except.bind, if_true]
  split
  · rename_i sliced
    rw [rest] at sliced
    cases sliced
  · rename_i sliced
    rw [rest] at sliced
    cases sliced
    rw [inner]

theorem evaluateAt_split (files : FileTest → String → Bool) (first second : String)
    (others : List String) (plain : first ≠ "!") :
    evaluateAt files (first :: second :: others) =
      match splitAt? "-o" (first :: second :: others) with
      | some (left, right) => joined (· || ·) (evaluateAt files left) (evaluateAt files right)
      | none =>
          match splitAt? "-a" (first :: second :: others) with
          | some (left, right) => joined (· && ·) (evaluateAt files left) (evaluateAt files right)
          | none => .ok (primary files (first :: second :: others)) := by
  have either := halvesAt_ok "-o" (first :: second :: others)
  have both := halvesAt_ok "-a" (first :: second :: others)
  rw [evaluateAt, if_neg (by simp)]
  simp only [item, List.getElem?_cons_zero, bind, Except.bind, if_neg plain]
  split
  · rename_i halved
    cases either.symm.trans halved
  · rename_i left right halved
    rw [Except.ok.inj (either.symm.trans halved)]
  · rename_i halved
    rw [Except.ok.inj (either.symm.trans halved)]
    split
    · rename_i again
      cases both.symm.trans again
    · rename_i left right again
      rw [Except.ok.inj (both.symm.trans again)]
    · rename_i again
      rw [Except.ok.inj (both.symm.trans again)]

theorem joined_ok (combine : Bool → Bool → Bool) (left right : Except Failure Bool) :
    joined combine (.ok left) (.ok right) = .ok (do
      let l ← left
      let r ← right
      .ok (combine l r)) := by
  cases left with
  | error failure => rfl
  | ok l => cases right <;> rfl

theorem evaluateAt_ok (files : FileTest → String → Bool) (words : List String)
    (nonempty : words ≠ []) : evaluateAt files words = .ok (evaluate files words) := by
  fun_induction evaluate files words with
  | case1 => exact absurd rfl nonempty
  | case2 word => exact evaluateAt_single files word
  | case3 second others ih =>
      exact evaluateAt_not files second others _ (ih (List.cons_ne_nil _ _))
  | case4 first second others plain left right found leftIh rightIh =>
      obtain ⟨leftSome, rightSome⟩ := splitAt?_nonempty _ _ left right found
      rw [evaluateAt_split files first second others plain, found]
      simp only [leftIh leftSome, rightIh rightSome, joined_ok]
  | case5 first second others plain single left right found leftIh rightIh =>
      obtain ⟨leftSome, rightSome⟩ := splitAt?_nonempty _ _ left right found
      rw [evaluateAt_split files first second others plain, single, found]
      simp only [leftIh leftSome, rightIh rightSome, joined_ok]
  | case6 first second others plain single whole =>
      rw [evaluateAt_split files first second others plain, single, whole]

def runAt (host : Host) (name : String) (words : List String) (context : Context) :
    Except String Context :=
  if words.isEmpty then .ok ((Completion.silent 1).apply context)
  else do
    let value ← evaluateAt (host.fileTest context.mode) words
    .ok ((verdict name value).apply context)

def checkedHandler : Handler := runAt

def checkedBracketHandler : Handler := fun host name arguments context =>
  if arguments.getLast? = some "]" then runAt host name arguments.dropLast context
  else .ok ((missingBracket name).apply context)

theorem runAt_ok (host : Host) (name : String) (words : List String) (context : Context) :
    runAt host name words context = .ok (run host name words context) := by
  unfold runAt run
  by_cases none : words = []
  · subst none
    rw [evaluate]
    rfl
  · rw [if_neg (by simp [none]), evaluateAt_ok _ words none]
    rfl

theorem checkedHandler_eq : checkedHandler = handler := by
  funext host name arguments context
  exact runAt_ok host name arguments context

theorem checkedBracketHandler_eq : checkedBracketHandler = bracketHandler := by
  funext host name arguments context
  simp only [checkedBracketHandler, bracketHandler, runAt_ok]

end ShellWalk.Test
