import ShellWalk.Proofs.Recursion

set_option autoImplicit false

namespace ShellWalk

namespace Text

theorem segments_cons (c : Char) (rest : List Char) :
    segments (c :: rest) =
      if c = '\n' then ([], (segments rest).1 :: (segments rest).2)
      else (c :: (segments rest).1, (segments rest).2) :=
  rfl

theorem splitOn_eq_segments (text : List Char) :
    text.splitOn '\n' = (segments text).1 :: (segments text).2 := by
  induction text with
  | nil => rfl
  | cons c rest ih =>
      rw [List.splitOn_eq_splitOnP] at ih ⊢
      rw [List.splitOnP_cons_eq_if_modifyHead, ih, segments_cons]
      by_cases newline : c = '\n'
      · simp [newline]
      · simp [newline]

theorem segments_append (front back : List Char) :
    segments (front ++ '\n' :: back) =
      ((segments front).1, (segments front).2 ++ (segments back).1 :: (segments back).2) := by
  induction front with
  | nil => rfl
  | cons c rest ih =>
      rw [List.cons_append, segments_cons, segments_cons, ih]
      by_cases newline : c = '\n'
      · simp [newline]
      · simp [newline]

theorem closeLines_append (line last : List Char) (later rest : List (List Char)) :
    closeLines line (later ++ last :: rest) =
      (line :: later).map chomp ++ closeLines last rest := by
  induction later generalizing line with
  | nil => rfl
  | cons next further ih =>
      rw [List.cons_append, closeLines, ih next]
      rfl

theorem lines_append (front back : List Char) :
    lines (front ++ '\n' :: back) = (front.splitOn '\n').map chomp ++ lines back := by
  rw [lines, segments_append, closeLines_append, splitOn_eq_segments]
  rfl

theorem lines_ended (text : List Char) :
    lines (text ++ ['\n']) = (text.splitOn '\n').map chomp := by
  have ended := lines_append text []
  rwa [show lines [] = [] from rfl, List.append_nil] at ended

theorem length_splitOn (text : List Char) :
    (text.splitOn '\n').length = text.count '\n' + 1 := by
  rw [splitOn_eq_segments]
  induction text with
  | nil => rfl
  | cons c rest ih =>
      rw [segments_cons]
      by_cases newline : c = '\n'
      · simpa [newline] using ih
      · simpa [newline] using ih

theorem unbroken_splitOn (text line : List Char) (member : line ∈ text.splitOn '\n') :
    '\n' ∉ line := by
  rw [splitOn_eq_segments] at member
  induction text generalizing line with
  | nil => simp_all [segments]
  | cons c rest ih =>
      rw [segments_cons] at member
      by_cases newline : c = '\n'
      · simp only [if_pos newline, List.mem_cons] at member
        rcases member with rfl | later
        · simp
        · exact ih line (List.mem_cons.mpr later)
      · simp only [if_neg newline, List.mem_cons] at member
        rcases member with rfl | later
        · exact List.not_mem_cons_of_ne_of_not_mem (Ne.symm newline) (ih _ (by simp))
        · exact ih line (List.mem_cons_of_mem _ later)

theorem chomp_eq_self_iff (line : List Char) : chomp line = line ↔ line.getLast? ≠ some '\r' := by
  unfold chomp
  by_cases returned : line.getLast? = some '\r'
  · have present : line ≠ [] := by
      rintro rfl
      cases returned
    have shorter : line.dropLast.length ≠ line.length := by
      have some := List.length_pos_iff.mpr present
      rw [List.length_dropLast]
      omega
    simp only [returned, if_true, ne_eq, not_true_eq_false, iff_false]
    exact fun same => shorter (congrArg List.length same)
  · simp [returned]

theorem chomp_subset (line : List Char) : chomp line ⊆ line := by
  unfold chomp
  split
  · exact List.dropLast_subset line
  · exact List.Subset.refl line

theorem map_chomp_iff (lines : List (List Char)) :
    lines.map chomp = lines ↔ ∀ line ∈ lines, line.getLast? ≠ some '\r' := by
  have each := List.map_inj_left (l := lines) (f := chomp) (g := id)
  rw [List.map_id] at each
  simp only [each, id, chomp_eq_self_iff]

-- The lines of a text can be read off it, so shortened ones give the same text only when none was
-- shortened.
theorem join_chomp_iff (text : List Char) :
    List.intercalate ['\n'] ((text.splitOn '\n').map chomp) = text ↔
      ∀ line ∈ text.splitOn '\n', line.getLast? ≠ some '\r' := by
  rw [← map_chomp_iff]
  constructor
  · intro joined
    have unbroken : ∀ piece ∈ (text.splitOn '\n').map chomp, '\n' ∉ piece := by
      intro piece shortened
      obtain ⟨whole, present, rfl⟩ := List.mem_map.mp shortened
      exact fun newline => unbroken_splitOn text whole present (chomp_subset whole newline)
    have pieces := List.splitOn_intercalate '\n' unbroken (by simp [List.splitOn_ne_nil])
    rw [joined] at pieces
    exact pieces.symm
  · intro kept
    rw [kept, List.intercalate_splitOn]

end Text

namespace Echo

def flagsOf (arguments : List String) : List String := arguments.takeWhile (· ∈ flagWords)

def wordsOf (arguments : List String) : List String := arguments.dropWhile (· ∈ flagWords)

-- The last flag that speaks of escapes decides about them, while no flag brings the newline back.
def asksEscapes (flags : List String) : Bool :=
  (flags.filter (· ≠ "-n")).getLast?.any (· ≠ "-E")

def refusesNewline (flags : List String) : Bool := flags.any (· ∈ ["-n", "-ne", "-en"])

def spoken (arguments : List String) : List Char × Bool :=
  let text := (String.intercalate " " (wordsOf arguments)).toList
  if asksEscapes (flagsOf arguments) then decode text else (text, false)

theorem add?_flag (flags : Flags) (word : String) (known : word ∈ flagWords) :
    flags.add? word = some ⟨flags.newline && !decide (word ∈ ["-n", "-ne", "-en"]),
      if word = "-n" then flags.escapes else decide (word ≠ "-E")⟩ := by
  simp only [flagWords, List.mem_cons, List.not_mem_nil, or_false] at known
  rcases known with rfl | rfl | rfl | rfl | rfl <;> simp [Flags.add?]

theorem add?_word (flags : Flags) (word : String) (plain : word ∉ flagWords) :
    flags.add? word = none := by
  simp only [flagWords, List.mem_cons, List.not_mem_nil, or_false, not_or] at plain
  simp [Flags.add?, plain]

theorem readFlags_eq (flags : Flags) (arguments : List String) :
    readFlags flags arguments =
      (⟨flags.newline && !refusesNewline (flagsOf arguments),
        ((flagsOf arguments).filter (· ≠ "-n")).getLast?.elim flags.escapes (· ≠ "-E")⟩,
        wordsOf arguments) := by
  induction arguments generalizing flags with
  | nil => simp [readFlags, flagsOf, wordsOf, refusesNewline]
  | cons word rest ih =>
      by_cases known : word ∈ flagWords
      · have front : flagsOf (word :: rest) = word :: flagsOf rest :=
          List.takeWhile_cons_of_pos (decide_eq_true known)
        have behind : wordsOf (word :: rest) = wordsOf rest :=
          List.dropWhile_cons_of_pos (decide_eq_true known)
        simp only [readFlags, add?_flag flags word known, ih, front, behind, refusesNewline,
          List.any_cons, Bool.not_or, Bool.and_assoc]
        by_cases silent : word = "-n"
        · simp [silent]
        · have kept : (word :: flagsOf rest).filter (· ≠ "-n") =
              word :: (flagsOf rest).filter (· ≠ "-n") :=
            List.filter_cons_of_pos (decide_eq_true silent)
          rw [if_neg silent, kept, List.getLast?_cons]
          cases ((flagsOf rest).filter (· ≠ "-n")).getLast? <;> rfl
      · rw [readFlags, add?_word flags word known]
        simp [flagsOf, wordsOf, known, refusesNewline]

theorem printed_eq (arguments : List String) :
    printed arguments = ⟨(spoken arguments).1,
      !(refusesNewline (flagsOf arguments) || (spoken arguments).2)⟩ := by
  have asked : ((flagsOf arguments).filter (· ≠ "-n")).getLast?.elim Flags.initial.escapes
      (· ≠ "-E") = asksEscapes (flagsOf arguments) := by
    unfold asksEscapes
    cases ((flagsOf arguments).filter (· ≠ "-n")).getLast? <;> rfl
  simp only [printed, spoken, readFlags_eq, asked]
  cases asksEscapes (flagsOf arguments) <;> simp [Flags.initial]

theorem onTerminal_printed (arguments : List String) :
    onTerminal (printed arguments) = String.ofList
      (if refusesNewline (flagsOf arguments) || (spoken arguments).2 then (spoken arguments).1
      else (spoken arguments).1 ++ ['\n']) := by
  rw [onTerminal, printed_eq]
  cases refusesNewline (flagsOf arguments) || (spoken arguments).2 <;> rfl

theorem linesOf_inLog (arguments : List String) :
    Text.linesOf (inLog (printed arguments)) =
      (((spoken arguments).1.splitOn '\n').map Text.chomp).map String.ofList := by
  rw [inLog, printed_eq, Text.linesOf, String.toList_ofList, Text.lines_ended]

end Echo

theorem Context.write_eq (context : Context) (text : String) :
    context.write text = { context with terminal :=
        if context.mode = .real then context.terminal ++ text else context.terminal } := by
  unfold Context.write
  split <;> rfl

theorem Completion.apply_success (stdout : String) (context : Context) :
    (success stdout).apply context = { context with
      output := context.output ++ Text.linesOf stdout
      exitCode := 0 } := by
  have silent : Text.linesOf "" = [] := rfl
  simp [apply, success, silent, Context.addOutput, Context.addErrors, Context.setExitCode]

theorem Echo.printed_text_logged (host : Host) (arguments : List String) (context : Context) :
    let text := (spoken arguments).1
    let unended := refusesNewline (flagsOf arguments) || (spoken arguments).2
    ∃ entries : List String,
      Registry.standard.run host "echo" arguments context = .ok { context with
        output := context.output ++ entries
        exitCode := 0
        terminal := if context.mode = .real then
            context.terminal ++ String.ofList (if unended then text else text ++ ['\n'])
          else context.terminal } ∧
      entries.length = text.count '\n' + 1 ∧
      entries.map String.toList = (text.splitOn '\n').map Text.chomp ∧
      (String.intercalate "\n" entries = String.ofList text ↔
        ∀ line ∈ text.splitOn '\n', line.getLast? ≠ some '\r') := by
  intro text unended
  have unpacked : (((text.splitOn '\n').map Text.chomp).map String.ofList).map String.toList =
      (text.splitOn '\n').map Text.chomp := by
    simp
  refine ⟨((text.splitOn '\n').map Text.chomp).map String.ofList, ?_, ?_, unpacked, ?_⟩
  · have handled : Registry.standard.run host "echo" arguments context =
        .ok ((Completion.success (inLog (printed arguments))).apply
          (context.write (onTerminal (printed arguments)))) := rfl
    rw [handled, onTerminal_printed, Context.write_eq, Completion.apply_success, linesOf_inLog]
  · rw [List.length_map, List.length_map, Text.length_splitOn]
  · rw [← Text.join_chomp_iff, ← String.toList_inj, String.toList_intercalate, unpacked,
      String.toList_ofList (l := text)]
    rfl

-- The return is printed, but it stands at the end of the only line. What `printf` makes of the same
-- escape is logged as it is printed.
theorem Echo.carriage_return_unlogged :
    let context := Context.start .real .empty false
    (∃ after, Registry.standard.run .void "echo" ["-ne", "a\\r"] context = .ok after ∧
      after.terminal = "a\r" ∧ after.output = ["a"] ∧
      String.intercalate "\n" after.output ≠ "a\r") ∧
    ∃ after, Registry.standard.run .void "printf" ["a\\r"] context = .ok after ∧
      after.terminal = "a\r" ∧ after.output = ["a\r"] := by
  intro context
  refine ⟨⟨_, rfl, by decide +kernel, by decide +kernel, by decide +kernel⟩, ?_⟩
  exact ⟨_, rfl, by decide +kernel, by decide +kernel⟩

end ShellWalk
