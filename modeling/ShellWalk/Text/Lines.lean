set_option autoImplicit false

namespace ShellWalk.Text

def segments (text : List Char) : List Char × List (List Char) :=
  text.foldr
    (fun c pieces => if c = '\n' then ([], pieces.1 :: pieces.2) else (c :: pieces.1, pieces.2))
    ([], [])

def chomp (line : List Char) : List Char :=
  if line.getLast? = some '\r' then line.dropLast else line

def closeLines : List Char → List (List Char) → List (List Char)
  | last, [] => if last = [] then [] else [last]
  | line, next :: rest => chomp line :: closeLines next rest

def lines (text : List Char) : List (List Char) :=
  closeLines (segments text).1 (segments text).2

def linesOf (text : String) : List String := (lines text.toList).map String.ofList

theorem segments_eq_nil (text : List Char) (nothing : segments text = ([], [])) : text = [] := by
  cases text with
  | nil => rfl
  | cons c rest =>
      simp only [segments, List.foldr_cons] at nothing
      split at nothing <;> simp at nothing

theorem closeLines_eq_nil (line : List Char) (later : List (List Char))
    (nothing : closeLines line later = []) : line = [] ∧ later = [] := by
  cases later with
  | nil => by_cases empty : line = [] <;> simp_all [closeLines]
  | cons next rest => simp [closeLines] at nothing

theorem linesOf_ne_nil (text : String) (present : text ≠ "") : linesOf text ≠ [] := by
  intro nothing
  obtain ⟨line, later⟩ := closeLines_eq_nil _ _ (List.map_eq_nil_iff.mp nothing)
  have empty := segments_eq_nil text.toList (Prod.ext line later)
  exact present (by simpa using empty)

example : linesOf "a\r\nb\r" = ["a", "b\r"] := by cbv
example : linesOf "a\n\n" = ["a", ""] := by cbv

end ShellWalk.Text
