import ShellWalk.Proofs.Numerals
import ShellWalk.Proofs.Passes

set_option autoImplicit false

namespace ShellWalk

def Text.letters : List (Char × Char) :=
  [('\\', '\\'), ('n', '\n'), ('t', '\t'), ('r', '\r'), ('a', '\x07'), ('b', '\x08'), ('f', '\x0c'),
   ('v', '\x0b')]

theorem Text.letterEscape?_letters :
    ∀ entry ∈ letters, letterEscape? entry.1 = some entry.2 := by
  decide

namespace Printf

def letters : List (Char × Char) := ('\x22', '\x22') :: Text.letters

inductive Spelling : Char → List Char → Prop where
  | itself (c : Char) (plain : c ≠ '\\') (other : c ≠ '%') : Spelling c [c]
  | percent : Spelling '%' ['%', '%']
  | letter (letter c : Char) (listed : (letter, c) ∈ letters) : Spelling c ['\\', letter]

theorem readEscape_letter (letter c : Char) (rest : List Char) (listed : (letter, c) ∈ letters) :
    readEscape (letter :: rest) = ([c], rest) := by
  rcases List.mem_cons.mp listed with quote | shared
  · obtain ⟨rfl, rfl⟩ := Prod.mk.inj quote
    rfl
  · simp only [readEscape, Text.letterEscape?_letters _ shared]

theorem pieces_spelling (c : Char) (spelling rest : List Char) (spelled : Spelling c spelling) :
    pieces (spelling ++ rest) = .literal [c] :: pieces rest := by
  cases spelled with
  | itself _ plain other =>
      rw [List.singleton_append, pieces, if_neg plain, if_neg other]
  | percent =>
      change pieces ('%' :: '%' :: rest) = _
      rw [pieces, if_neg (by decide), if_pos rfl, List.head?_cons, if_pos rfl, List.tail_cons]
  | letter letter _ listed =>
      have read := readEscape_letter letter c rest listed
      rw [List.cons_append, List.singleton_append, pieces, if_pos rfl, read]

theorem pieces_spellings {text : List Char} {spellings : List (List Char)}
    (spelled : List.Forall₂ Spelling text spellings) :
    pieces spellings.flatten = text.map fun c => .literal [c] := by
  induction spelled with
  | nil => rw [List.flatten_nil, pieces, List.map_nil]
  | cons here _ ih =>
      rw [List.flatten_cons, pieces_spelling _ _ _ here, ih, List.map_cons]

theorem pass_literals (text : List Char) (arguments : List String) :
    pass (text.map fun c => .literal [c]) arguments = (⟨text, []⟩, arguments) := by
  induction text with
  | nil => rfl
  | cons c rest ih => simp [pass, ih, Printed.append]

theorem arity_literals (text : List Char) : arity (text.map fun c => .literal [c]) = 0 := by
  rw [arity, List.countP_eq_zero]
  intro piece member
  obtain ⟨c, _, rfl⟩ := List.mem_map.mp member
  simp [Piece.consumes]

theorem spelled_text_printed (host : Host) (context : Context) (text : String)
    (spellings : List (List Char)) (spelled : List.Forall₂ Spelling text.toList spellings)
    (arguments : List String) :
    let format := String.ofList spellings.flatten
    completion (format :: arguments) = .success text ∧
    Registry.standard.run host "printf" (format :: arguments) context =
      .ok ((Completion.success text).apply (context.write text)) := by
  intro format
  have reading : pieces format.toList = text.toList.map fun c => .literal [c] := by
    rw [String.toList_ofList, pieces_spellings spelled]
  have printed : passes (pieces format.toList) arguments = ⟨text.toList, []⟩ := by
    rw [reading, passes_idle _ _ (arity_literals text.toList), pass_literals]
  have finished : completion (format :: arguments) = .success text := by
    rw [completion, printed]
    simp [complete, Printed.exitCode, Completion.success]
  refine ⟨finished, ?_⟩
  rw [run_printf, finished]
  rfl

theorem spelled_text_printed_adjacent :
    let spellings := [['%', '%'], ['%', '%'], ['\\', '\\'], ['n'], ['\\', 'n'], ['%', '%'],
      ['\\', '\x22'], ['\\', '\\']]
    List.Forall₂ Spelling "%%\\n\n%\x22\\".toList spellings ∧
    completion [String.ofList spellings.flatten, "left", "over"] = .success "%%\\n\n%\x22\\" := by
  intro spellings
  have spelled : List.Forall₂ Spelling "%%\\n\n%\x22\\".toList spellings :=
    .cons .percent (.cons .percent (.cons (.letter _ _ (by decide)) (.cons
      (.itself _ (by decide) (by decide)) (.cons (.letter _ _ (by decide)) (.cons .percent (.cons
        (.letter _ _ (by decide)) (.cons (.letter _ _ (by decide)) .nil)))))))
  exact ⟨spelled, (spelled_text_printed .void (Context.start .simulate .empty false) _ _ spelled
    ["left", "over"]).1⟩

end Printf

namespace Echo

def letters : List (Char × Char) := ('e', '\x1b') :: ('E', '\x1b') :: Text.letters

-- Octal digits count modulo 256, so that every character below it has two octal spellings.
inductive Spelling : Char → List Char → Prop where
  | itself (c : Char) (plain : c ≠ '\\') : Spelling c [c]
  | letter (letter c : Char) (listed : (letter, c) ∈ letters) : Spelling c ['\\', letter]
  | octal (c first second third : Char) (high middle low : Nat)
      (one : Text.DigitOf 8 high first) (two : Text.DigitOf 8 middle second)
      (three : Text.DigitOf 8 low third) (code : (64 * high + 8 * middle + low) % 256 = c.toNat) :
      Spelling c ['\\', '0', first, second, third]
  | hex (c first second : Char) (high low : Nat) (one : Text.DigitOf 16 high first)
      (two : Text.DigitOf 16 low second) (code : 16 * high + low = c.toNat) :
      Spelling c ['\\', 'x', first, second]

theorem escape_letter (letter c : Char) (rest : List Char) (listed : (letter, c) ∈ letters) :
    escape (letter :: rest) = (.text [c], rest) := by
  simp only [letters, List.mem_cons] at listed
  rcases listed with small | capital | shared
  · obtain ⟨rfl, rfl⟩ := Prod.mk.inj small
    rfl
  · obtain ⟨rfl, rfl⟩ := Prod.mk.inj capital
    rfl
  · simp only [escape, Text.letterEscape?_letters _ shared]

theorem isOctal_digitOf {value : Nat} {c : Char} (digit : Text.DigitOf 8 value c) :
    Text.isOctal c = true := by
  have table : ∀ value < 8, Text.isOctal value.digitChar = true ∧
      Text.isOctal value.digitChar.toUpper = true := by decide
  obtain ⟨small, rfl | rfl⟩ := digit
  · exact (table value small).1
  · exact (table value small).2

theorem octalEscape_digits (first second third : Char) (high middle low : Nat) (rest : List Char)
    (one : Text.DigitOf 8 high first) (two : Text.DigitOf 8 middle second)
    (three : Text.DigitOf 8 low third) :
    octalEscape (first :: second :: third :: rest) =
      (.text [Char.ofNat ((64 * high + 8 * middle + low) % 256)], rest) := by
  have value : runValue 8 [first, second, third] = 64 * high + 8 * middle + low := by
    simp only [runValue, Text.digitsFrom?, Text.digit?_digitOf (by decide) one,
      Text.digit?_digitOf (by decide) two, Text.digit?_digitOf (by decide) three, Option.getD_some]
    omega
  simp [octalEscape, isOctal_digitOf one, isOctal_digitOf two, isOctal_digitOf three, value]

theorem hexEscape_digits (first second : Char) (high low : Nat) (rest : List Char)
    (one : Text.DigitOf 16 high first) (two : Text.DigitOf 16 low second) :
    hexEscape (first :: second :: rest) = (.text [Char.ofNat (16 * high + low)], rest) := by
  have left := Text.digit?_digitOf (by decide) one
  have right := Text.digit?_digitOf (by decide) two
  have value : runValue 16 [first, second] = 16 * high + low := by
    simp only [runValue, Text.digitsFrom?, left, right, Option.getD_some]
    omega
  simp [hexEscape, Text.isHex, left, right, value]

theorem decode_text (piece text rest : List Char) (read : escape text = (.text piece, rest)) :
    decode ('\\' :: text) = (piece ++ (decode rest).1, (decode rest).2) := by
  rw [decode, if_pos rfl, read]

theorem decode_spelling (c : Char) (spelling rest : List Char) (spelled : Spelling c spelling) :
    decode (spelling ++ rest) = (c :: (decode rest).1, (decode rest).2) := by
  cases spelled with
  | itself _ plain => rw [List.singleton_append, decode, if_neg plain]
  | letter letter _ listed => exact decode_text [c] _ rest (escape_letter letter c rest listed)
  | octal _ first second third high middle low one two three code =>
      have read := octalEscape_digits first second third high middle low rest one two three
      rw [code, Char.ofNat_toNat] at read
      exact decode_text [c] ('0' :: first :: second :: third :: rest) rest read
  | hex _ first second high low one two code =>
      have read := hexEscape_digits first second high low rest one two
      rw [code, Char.ofNat_toNat] at read
      exact decode_text [c] ('x' :: first :: second :: rest) rest read

theorem decode_spellings {text : List Char} {spellings : List (List Char)} (rest : List Char)
    (spelled : List.Forall₂ Spelling text spellings) :
    decode (spellings.flatten ++ rest) = (text ++ (decode rest).1, (decode rest).2) := by
  induction spelled with
  | nil => rfl
  | cons here _ ih =>
      rw [List.flatten_cons, List.append_assoc, decode_spelling _ _ _ here, ih]
      rfl

theorem spelled_text_decoded (text : List Char) (spellings : List (List Char))
    (spelled : List.Forall₂ Spelling text spellings) :
    decode spellings.flatten = (text, false) ∧
    ∀ ignored, decode (spellings.flatten ++ '\\' :: 'c' :: ignored) = (text, true) := by
  constructor
  · have whole := decode_spellings [] spelled
    rwa [List.append_nil, decode, List.append_nil] at whole
  · intro ignored
    have stop : decode ('\\' :: 'c' :: ignored) = ([], true) := by
      rw [decode, if_pos rfl]
      rfl
    rw [decode_spellings _ spelled, stop, List.append_nil]

theorem spelled_text_decoded_digits :
    let spellings := [['\\', '0', '1', '0', '1'], ['7'], ['\\', 'x', 'f', 'F'], ['a'],
      ['\\', '0', '7', '7', '7'], ['\\', 'E']]
    List.Forall₂ Spelling ['A', '7', '\xff', 'a', '\xff', '\x1b'] spellings ∧
    decode (spellings.flatten ++ ['\\', 'c', '\\']) =
      (['A', '7', '\xff', 'a', '\xff', '\x1b'], true) := by
  intro spellings
  have spelled : List.Forall₂ Spelling ['A', '7', '\xff', 'a', '\xff', '\x1b'] spellings := by
    refine .cons (.octal _ _ _ _ 1 0 1 ?_ ?_ ?_ rfl) (.cons (.itself _ (by decide)) (.cons
      (.hex _ _ _ 15 15 ?_ ?_ rfl) (.cons (.itself _ (by decide)) (.cons
        (.octal _ _ _ _ 7 7 7 ?_ ?_ ?_ rfl) (.cons (.letter _ _ (by decide)) .nil)))))
    all_goals exact ⟨by decide, by decide⟩
  exact ⟨spelled, (spelled_text_decoded _ _ spelled).2 ['\\']⟩

end Echo

end ShellWalk
