import ShellWalk.Command.Handler
import ShellWalk.Text.Blank

set_option autoImplicit false

namespace ShellWalk

inductive FileTest where
  | present
  | file
  | directory
deriving DecidableEq, Repr

def FileTest.ofName? (operator : String) : Option FileTest :=
  if operator = "-e" then some .present
  else if operator = "-f" then some .file
  else if operator = "-d" then some .directory
  else none

def Host.fileTest (host : Host) (mode : Mode) (test : FileTest) (path : String) : Bool :=
  if mode = .simulate then false
  else match test with
    | .present => host.pathExists path
    | .file => host.isFile path
    | .directory => host.isDirectory path

namespace Test

inductive Failure where
  | binaryExpected (operator : String)
  | unaryExpected (operator : String)
  | integerExpected (operand : String)
  | tooManyArguments
deriving DecidableEq, Repr

def Failure.message : Failure → String
  | .binaryExpected operator => operator ++ ": binary operator expected"
  | .unaryExpected operator => operator ++ ": unary operator expected"
  | .integerExpected operand => operand ++ ": integer expression expected"
  | .tooManyArguments => "too many arguments"

inductive Comparison where
  | eq
  | ne
  | lt
  | le
  | gt
  | ge
deriving DecidableEq, Repr

def Comparison.ofName? (operator : String) : Option Comparison :=
  if operator = "-eq" then some .eq
  else if operator = "-ne" then some .ne
  else if operator = "-lt" then some .lt
  else if operator = "-le" then some .le
  else if operator = "-gt" then some .gt
  else if operator = "-ge" then some .ge
  else none

def Comparison.holds (left right : Int) : Comparison → Bool
  | .eq => left = right
  | .ne => left ≠ right
  | .lt => left < right
  | .le => left ≤ right
  | .gt => left > right
  | .ge => left ≥ right

def integer (operand : String) : Except Failure Int :=
  match Text.word? 10 (Text.trim operand.toList) with
  | some n => .ok n
  | none => .error (.integerExpected operand)

def binary (left operator right : String) : Except Failure Bool :=
  if operator = "=" ∨ operator = "==" then .ok (left = right)
  else if operator = "!=" then .ok (left ≠ right)
  else match Comparison.ofName? operator with
    | some comparison => do
        let l ← integer left
        let r ← integer right
        .ok (comparison.holds l r)
    | none => .error (.binaryExpected operator)

def unary (files : FileTest → String → Bool) (operator operand : String) : Except Failure Bool :=
  if operator = "-z" then .ok (operand = "")
  else if operator = "-n" then .ok (operand ≠ "")
  else match FileTest.ofName? operator with
    | some test => .ok (files test operand)
    | none => .error (.unaryExpected operator)

def primary (files : FileTest → String → Bool) : List String → Except Failure Bool
  | [left, operator, right] => binary left operator right
  | [operator, operand] => unary files operator operand
  | _ => .error .tooManyArguments

def splitAt? (connective : String) : List String → Option (List String × List String)
  | [] => none
  | first :: rest =>
      match rest.dropWhile (· ≠ connective) with
      | _ :: next :: others => some (first :: rest.takeWhile (· ≠ connective), next :: others)
      | _ => none

theorem splitAt?_length {connective : String} {words left right : List String}
    (found : splitAt? connective words = some (left, right)) :
    left.length < words.length ∧ right.length < words.length := by
  cases words with
  | nil => simp [splitAt?] at found
  | cons first rest =>
      have whole := congrArg List.length (List.takeWhile_append_dropWhile
        (p := (· ≠ connective)) (l := rest))
      rw [splitAt?] at found
      split at found
      · rename_i next others dropped
        simp only [Option.some.injEq, Prod.mk.injEq] at found
        rw [List.length_append, dropped] at whole
        simp only [List.length_cons] at whole
        rcases found with ⟨rfl, rfl⟩
        simp only [List.length_cons]
        omega
      · simp at found

-- The value of a condition. A negation reaches over all that follows, and `-o` binds looser than
-- `-a`.
def evaluate (files : FileTest → String → Bool) (words : List String) : Except Failure Bool :=
  match words with
  | [] => .ok false
  | [word] => .ok (word ≠ "")
  | first :: second :: others =>
      if first = "!" then (evaluate files (second :: others)).map (!·)
      else
        match _ : splitAt? "-o" (first :: second :: others) with
        | some (left, right) => do
            let l ← evaluate files left
            let r ← evaluate files right
            .ok (l || r)
        | none =>
            match _ : splitAt? "-a" (first :: second :: others) with
            | some (left, right) => do
                let l ← evaluate files left
                let r ← evaluate files right
                .ok (l && r)
            | none => primary files (first :: second :: others)
termination_by words.length
decreasing_by
  · simp
  · exact (splitAt?_length (by assumption)).1
  · exact (splitAt?_length (by assumption)).2
  · exact (splitAt?_length (by assumption)).1
  · exact (splitAt?_length (by assumption)).2

def verdict (name : String) : Except Failure Bool → Completion
  | .ok true => .silent 0
  | .ok false => .silent 1
  | .error failure => ⟨"", name ++ ": " ++ failure.message ++ "\n", 2⟩

def run (host : Host) (name : String) (words : List String) (context : Context) : Context :=
  (verdict name (evaluate (host.fileTest context.mode) words)).apply context

def handler : Handler := fun host name arguments context => .ok (run host name arguments context)

def missingBracket (name : String) : Completion := ⟨"", name ++ ": missing ']'\n", 2⟩

def bracketHandler : Handler := fun host name arguments context =>
  if arguments.getLast? = some "]" then .ok (run host name arguments.dropLast context)
  else .ok ((missingBracket name).apply context)

end Test

end ShellWalk
