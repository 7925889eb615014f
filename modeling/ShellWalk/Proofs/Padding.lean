import ShellWalk.Proofs.Numerals
import ShellWalk.Proofs.Passes

set_option autoImplicit false

namespace ShellWalk.Printf

def isSpace (c : Char) : Bool := c = ' '

def unpadded (field : List Char) : List Char :=
  ((field.dropWhile isSpace).reverse.dropWhile isSpace).reverse

def zeroFilled (fill : Nat) : List Char → List Char
  | '-' :: digits => '-' :: (List.replicate fill '0' ++ digits)
  | digits => List.replicate fill '0' ++ digits

theorem unpadded_spaces (before after : Nat) (text : List Char) (solid : ' ' ∉ text) :
    unpadded (List.replicate before ' ' ++ text ++ List.replicate after ' ') = text := by
  have spaces : ∀ count, ∀ c ∈ List.replicate count ' ', isSpace c = true :=
    fun count c member => decide_eq_true (List.eq_of_mem_replicate member)
  exact Text.dropWhile_ends isSpace _ text _ (spaces before) (spaces after)
    fun c member => decide_eq_false fun same => solid (same ▸ member)

section Pad

variable (spec : Spec) (body : List Char)

theorem pad_length (numeric : Bool) :
    (pad spec numeric body).length = max spec.width body.length := by
  unfold pad
  split
  · simp
    omega
  · split
    · split <;> simp <;> omega
    · simp
      omega

theorem zeroFilled_zero : zeroFilled 0 body = body := by
  unfold zeroFilled
  split <;> rfl

theorem zeroFilled_unsigned (fill : Nat) (unsigned : '-' ∉ body) :
    zeroFilled fill body = List.replicate fill '0' ++ body := by
  unfold zeroFilled
  split
  · exact absurd (List.mem_cons_self ..) unsigned
  · rfl

theorem zeroFilled_solid (fill : Nat) (solid : ' ' ∉ body) : ' ' ∉ zeroFilled fill body := by
  unfold zeroFilled
  split <;> simp_all [List.mem_replicate]

theorem unpadded_pad (solid : ' ' ∉ body) :
    ∃ fill, unpadded (pad spec true body) = zeroFilled fill body := by
  unfold pad
  split
  · have left := unpadded_spaces 0 (spec.width - body.length) body solid
    rw [List.replicate_zero, List.nil_append] at left
    exact ⟨0, left.trans (zeroFilled_zero body).symm⟩
  · split
    · refine ⟨spec.width - body.length, ?_⟩
      have zeros := unpadded_spaces 0 0 _ (zeroFilled_solid body (spec.width - body.length) solid)
      rw [List.replicate_zero, List.nil_append, List.append_nil] at zeros
      exact zeros
    · have right := unpadded_spaces (spec.width - body.length) 0 body solid
      rw [List.replicate_zero, List.append_nil] at right
      exact ⟨0, right.trans (zeroFilled_zero body).symm⟩

end Pad

theorem integerArgument_numeral (argument : String) (n : Int)
    (numeral : Text.Numeral argument.toList n) (range : -2 ^ 63 ≤ n ∧ n < 2 ^ 63) :
    integerArgument argument = .ok n := by
  have read := (Text.word?_eq_some_iff _ n).mpr ⟨numeral, range⟩
  unfold integerArgument
  split
  case h_6 =>
    rw [read]
    rfl
  all_goals
    rename_i same
    rw [same] at read
    cases read

theorem numeral_zeroFilled (n : Int) (fill : Nat) :
    Text.Numeral (zeroFilled fill (Text.signed n)) n := by
  have read : Text.natural? 10 (Text.decimal n.natAbs) = some n.natAbs :=
    Text.natural?_lower 10 n.natAbs (by decide) (by decide)
  obtain ⟨decimal, value⟩ := (Text.natural?_eq_some_iff _ _).mp
    (Text.natural?_zeros fill (by decide) read)
  unfold Text.signed
  split
  · have same : n = -Text.decimalValue (List.replicate fill '0' ++ Text.decimal n.natAbs) := by
      omega
    have numeral := Text.Numeral.negative _ decimal
    rwa [← same] at numeral
  · have same : n = Text.decimalValue (List.replicate fill '0' ++ Text.decimal n.natAbs) := by
      omega
    have numeral := Text.Numeral.unsigned _ decimal
    rw [← same] at numeral
    rwa [zeroFilled_unsigned _ fill (Text.natural?_digits read '-' rfl)]

theorem signed_eq_toString (n : Int) : Text.signed n = (toString n).toList := by
  cases n with
  | ofNat m =>
      have positive : ¬ Int.ofNat m < 0 := Int.not_lt.mpr (Int.natCast_nonneg m)
      rw [Text.signed, if_neg positive]
      exact String.toList_ofList.symm
  | negSucc m =>
      rw [Text.signed, if_pos (Int.negSucc_lt_zero m)]
      change '-' :: Nat.toDigits 10 (m + 1) =
        ("-" ++ String.ofList (Nat.toDigits 10 (m + 1))).toList
      simp

theorem decimalValue_dropWhile (digits : List Char) (decimal : ∀ c ∈ digits, '0' ≤ c ∧ c ≤ '9') :
    Text.decimalValue (digits.dropWhile isFlag) = Text.decimalValue digits := by
  induction digits with
  | nil => rfl
  | cons c rest ih =>
      by_cases flag : isFlag c
      · have zero : c = '0' := by
          have lower := (decimal c (List.mem_cons_self ..)).1
          simp only [isFlag, Bool.or_eq_true, decide_eq_true_eq] at flag
          rcases flag with (((rfl | rfl) | rfl) | rfl) | rfl
          · exact absurd lower (by decide)
          · rfl
          · exact absurd lower (by decide)
          · exact absurd lower (by decide)
          · exact absurd lower (by decide)
        rw [List.dropWhile_cons_of_pos flag, Text.decimalValue_cons, zero, Nat.sub_self,
          Nat.zero_mul, Nat.zero_add]
        exact ih fun other member => decimal other (List.mem_cons_of_mem _ member)
      · rw [List.dropWhile_cons_of_neg flag]

theorem sizeValue_decimal (digits : List Char) (decimal : ∀ c ∈ digits, '0' ≤ c ∧ c ≤ '9') :
    sizeValue digits = Text.decimalValue digits := by
  rw [sizeValue, Text.digitsFrom?_decimal 0 digits decimal]
  simp

theorem readSpec_runs (flags digits ending : List Char) (flagged : ∀ c ∈ flags, isFlag c = true)
    (behind : ∀ c ∈ (digits ++ ending).head?, isFlag c = false)
    (decimal : ∀ c ∈ digits, Text.isDigit c = true)
    (ended : ∀ c ∈ ending.head?, Text.isDigit c = false) :
    readSpec (flags ++ (digits ++ ending)) =
      let precision := (readPrecision ending).1
      let closing := readConversion (readPrecision ending).2
      ({ leftAlign := flags.contains '-'
         zeroPad := flags.contains '0'
         width := Printf.sizeOf digits
         precision := precision.map Printf.sizeOf
         oversized := (oversized? digits).or (precision.bind oversized?)
         conversion := closing.1 }, closing.2) := by
  simp only [readSpec, Text.takeWhile_run isFlag flags _ flagged behind,
    Text.dropWhile_run isFlag flags _ flagged behind,
    Text.takeWhile_run Text.isDigit digits ending decimal ended,
    Text.dropWhile_run Text.isDigit digits ending decimal ended]

theorem numeric_plain (conversion : Char) (numeric : isNumeric conversion = true) :
    isFlag conversion = false ∧ Text.isDigit conversion = false ∧ conversion ≠ '.' ∧
      conversion ≠ 's' ∧ conversion ≠ 'c' := by
  simp only [isNumeric, Bool.or_eq_true, decide_eq_true_eq] at numeric
  rcases numeric with (((rfl | rfl) | rfl) | rfl) | rfl <;> decide

theorem readSpec_sized (flags digits rest : List Char) (conversion : Char)
    (flagged : ∀ c ∈ flags, isFlag c = true) (decimal : ∀ c ∈ digits, '0' ≤ c ∧ c ≤ '9')
    (bounded : Text.decimalValue digits ≤ maxSize) (numeric : isNumeric conversion = true) :
    readSpec (flags ++ digits ++ conversion :: rest) =
      ({ leftAlign := (flags ++ digits.takeWhile isFlag).contains '-'
         zeroPad := (flags ++ digits.takeWhile isFlag).contains '0'
         width := Text.decimalValue digits
         precision := none
         oversized := none
         conversion := some conversion }, rest) := by
  obtain ⟨noFlag, noDigit, noPoint, _⟩ := numeric_plain conversion numeric
  have marks : ∀ c ∈ flags ++ digits.takeWhile isFlag, isFlag c = true := fun c member =>
    (List.mem_append.mp member).elim (flagged c) (List.all_eq_true.mp List.all_takeWhile c)
  have behind : ∀ c ∈ (digits.dropWhile isFlag ++ conversion :: rest).head?,
      isFlag c = false := by
    have stopped := List.head?_dropWhile_not isFlag digits
    cases same : digits.dropWhile isFlag with
    | nil => simpa using noFlag
    | cons c later =>
        rw [same] at stopped
        simpa using stopped
  have sized : ∀ c ∈ digits.dropWhile isFlag, '0' ≤ c ∧ c ≤ '9' := fun c member =>
    decimal c ((List.dropWhile_sublist isFlag).subset member)
  have accepted : ∀ c ∈ digits.dropWhile isFlag, Text.isDigit c = true := fun c member => by
    simpa [Text.isDigit] using sized c member
  have ended : ∀ c ∈ (conversion :: rest).head?, Text.isDigit c = false := by
    simpa using noDigit
  have value : sizeValue (digits.dropWhile isFlag) = Text.decimalValue digits := by
    rw [sizeValue_decimal _ sized, decimalValue_dropWhile digits decimal]
  have point : readPrecision (conversion :: rest) = (none, conversion :: rest) := by
    unfold readPrecision
    split
    · simp_all
    · rfl
  have read := readSpec_runs _ _ _ marks behind accepted ended
  rw [← List.append_assoc, List.append_assoc flags, List.takeWhile_append_dropWhile, point] at read
  simpa only [Printf.sizeOf, oversized?, value, if_pos bounded, readConversion, Option.map_none,
    Option.bind_none, Option.or_none] using read

theorem render_numeric (spec : Spec) (conversion : Char) (argument : String) (n : Int)
    (asked : spec.conversion = some conversion) (fits : spec.oversized = none)
    (numeric : isNumeric conversion = true) (read : integerArgument argument = .ok n) :
    spec.render argument = .ok (pad spec true (numericText conversion n)) := by
  obtain ⟨_, _, _, noText, noCharacter⟩ := numeric_plain conversion numeric
  unfold Spec.render
  rw [asked, fits]
  simp only [if_neg noText, if_neg noCharacter, if_pos numeric, read]
  rfl

theorem pieces_field (text rest : List Char) (spec : Spec) (single : text.head? ≠ some '%')
    (read : readSpec text = (spec, rest)) : pieces ('%' :: text) = .field spec :: pieces rest := by
  rw [pieces, if_neg (by decide), if_pos rfl, if_neg single, read]

-- The text that a specifier gives for an argument, with more of the format behind it and alone.
structure Prints (specifier : List Char) (argument : String) (text : List Char) : Prop where
  inFormat : ∀ rest arguments, pass (pieces (specifier ++ rest)) (argument :: arguments) =
    (.append ⟨text, []⟩ (pass (pieces rest) arguments).1, (pass (pieces rest) arguments).2)
  alone : ∀ host context,
    Registry.standard.run host "printf" [String.ofList specifier, argument] context =
      .ok ((Completion.success (String.ofList text)).apply (context.write (String.ofList text)))

theorem prints_of_pass (specifier : List Char) (argument : String) (text : List Char)
    (passed : ∀ rest arguments, pass (pieces (specifier ++ rest)) (argument :: arguments) =
      (.append ⟨text, []⟩ (pass (pieces rest) arguments).1, (pass (pieces rest) arguments).2)) :
    Prints specifier argument text := by
  have whole := passed [] []
  rw [List.append_nil, pieces] at whole
  have printed : passes (pieces specifier) [argument] = ⟨text, []⟩ := by
    rw [passes, whole, if_neg (by simp [pass])]
    exact Printed.append_none _
  have finished : completion [String.ofList specifier, argument] =
      .success (String.ofList text) := by
    rw [completion, String.toList_ofList, printed]
    rfl
  refine ⟨passed, fun host context => ?_⟩
  rw [run_printf, finished]
  rfl

theorem head?_specifier (flags digits rest : List Char) (conversion : Char)
    (flagged : ∀ c ∈ flags, isFlag c = true) (decimal : ∀ c ∈ digits, '0' ≤ c ∧ c ≤ '9')
    (numeric : isNumeric conversion = true) :
    (flags ++ digits ++ conversion :: rest).head? ≠ some '%' := by
  intro percent
  cases flags with
  | cons c later =>
      obtain rfl : c = '%' := by simpa using percent
      exact absurd (flagged '%' (List.mem_cons_self ..)) (by decide)
  | nil =>
      cases digits with
      | cons c later =>
          obtain rfl : c = '%' := by simpa using percent
          exact absurd (decimal '%' (List.mem_cons_self ..)).1 (by decide)
      | nil =>
          obtain rfl : conversion = '%' := by simpa using percent
          exact absurd numeric (by decide)

theorem prints_numeric (flags digits : List Char) (conversion : Char) (argument : String) (n : Int)
    (flagged : ∀ c ∈ flags, isFlag c = true) (decimal : ∀ c ∈ digits, '0' ≤ c ∧ c ≤ '9')
    (bounded : Text.decimalValue digits ≤ maxSize) (numeric : isNumeric conversion = true)
    (read : integerArgument argument = .ok n) :
    ∃ spec : Spec, spec.width = Text.decimalValue digits ∧
      Prints ('%' :: (flags ++ digits ++ [conversion])) argument
        (pad spec true (numericText conversion n)) := by
  have sized := fun rest =>
    readSpec_sized flags digits rest conversion flagged decimal bounded numeric
  generalize found : Spec.mk _ _ _ _ _ _ = spec at sized
  refine ⟨spec, by rw [← found], prints_of_pass _ _ _ fun rest arguments => ?_⟩
  have single := head?_specifier flags digits rest conversion flagged decimal numeric
  have reading := pieces_field _ rest spec single (sized rest)
  have rendered := render_numeric spec conversion argument n (by rw [← found]) (by rw [← found])
    numeric read
  have consumed : spec.consumes = true := by
    rw [← found]
    simp [Spec.consumes, takesArgument, numeric]
  rw [List.cons_append, List.append_assoc _ [conversion], List.singleton_append, reading, pass]
  simp only [List.headD_cons, rendered, consumed, if_true, List.tail_cons]
  rfl

theorem bits_natural (n : Nat) (small : n < 2 ^ 63) : Text.bits n = n := by
  have size : Text.wordSize = 2 ^ 64 := rfl
  rw [Text.bits, size]
  omega

theorem natural?_hex (conversion : Char) (n : Nat) (small : n < 2 ^ 63)
    (listed : conversion ∈ ['x', 'X']) :
    Text.natural? 16 (numericText conversion n) = some n ∧
      (numericText conversion n).length = (Nat.toDigits 16 n).length := by
  simp only [List.mem_cons, List.not_mem_nil, or_false] at listed
  rcases listed with rfl | rfl
  · change Text.natural? 16 (Nat.toDigits 16 (Text.bits n)) = some n ∧
      (Nat.toDigits 16 (Text.bits n)).length = _
    rw [bits_natural n small]
    exact ⟨Text.natural?_lower 16 n (by decide) (by decide), rfl⟩
  · change Text.natural? 16 (upperHex (Text.bits n)) = some n ∧ (upperHex (Text.bits n)).length = _
    rw [bits_natural n small]
    exact ⟨Text.natural?_upper 16 n (by decide) (by decide), List.length_map ..⟩

theorem numericText_octal (n : Nat) (small : n < 2 ^ 63) :
    numericText 'o' n = Nat.toDigits 8 n := by
  change Nat.toDigits 8 (Text.bits n) = _
  rw [bits_natural n small]

section Kept

variable (spec : Spec)

theorem signed_kept (n : Int) : Text.Numeral (unpadded (pad spec true (Text.signed n))) n := by
  have plain := numeral_zeroFilled n 0
  rw [zeroFilled_zero] at plain
  have solid : ' ' ∉ Text.signed n := fun space => absurd (plain.solid ' ' space) (by decide)
  obtain ⟨fill, same⟩ := unpadded_pad spec (Text.signed n) solid
  rw [same]
  exact numeral_zeroFilled n fill

theorem digits_kept (base n : Nat) (body : List Char) (positive : 0 < base) (small : n < 2 ^ 63)
    (read : Text.natural? base body = some n) :
    Text.word? base (unpadded (pad spec true body)) = some (n : Int) := by
  obtain ⟨fill, same⟩ := unpadded_pad spec body (Text.natural?_digits read ' ' rfl)
  rw [same, zeroFilled_unsigned body fill (Text.natural?_digits read '-' rfl)]
  exact Text.word?_natural (Text.natural?_zeros fill positive read) small

end Kept

theorem integerArgument_hex (digits : List Char) (n : Int)
    (read : Text.word? 16 digits = some n) :
    integerArgument ("0x" ++ String.ofList digits) = .ok n := by
  have text : ("0x" ++ String.ofList digits).toList = '0' :: 'x' :: digits := by simp
  simp only [integerArgument, text, read]
  rfl

theorem padding_keeps_number (flags digits : List Char)
    (flagged : ∀ c ∈ flags, c ∈ ['-', '0', '+', ' ', '#'])
    (decimal : ∀ c ∈ digits, '0' ≤ c ∧ c ≤ '9') (bounded : Text.decimalValue digits ≤ 2 ^ 20)
    (argument : String) (n : Int) (given : Text.Numeral argument.toList n)
    (range : -2 ^ 63 ≤ n ∧ n < 2 ^ 63) :
    let width := Text.decimalValue digits
    let specifier := fun conversion => '%' :: (flags ++ digits ++ [conversion])
    (∀ conversion ∈ ['d', 'i'], ∃ field, Prints (specifier conversion) argument field ∧
      field.length = max width (toString n).length ∧
      integerArgument (String.ofList (unpadded field)) = .ok n) ∧
    (0 ≤ n →
      (∀ conversion ∈ ['x', 'X'], ∃ field, Prints (specifier conversion) argument field ∧
        field.length = max width (Nat.toDigits 16 n.toNat).length ∧
        integerArgument ("0x" ++ String.ofList (unpadded field)) = .ok n) ∧
      ∃ field, Prints (specifier 'o') argument field ∧
        field.length = max width (Nat.toDigits 8 n.toNat).length ∧
        Text.word? 8 (unpadded field) = some n) := by
  intro width specifier
  have table : ∀ c ∈ ['-', '0', '+', ' ', '#'], isFlag c = true := List.all_eq_true.mp rfl
  have decimals : ∀ c ∈ ['d', 'i'], isNumeric c = true := List.all_eq_true.mp rfl
  have hexadecimals : ∀ c ∈ ['x', 'X'], isNumeric c = true := List.all_eq_true.mp rfl
  have field := fun conversion numeric => prints_numeric flags digits conversion argument n
    (fun c member => table c (flagged c member)) decimal bounded numeric
    (integerArgument_numeral argument n given range)
  refine ⟨fun conversion listed => ?_, fun positive => ⟨fun conversion listed => ?_, ?_⟩⟩
  · obtain ⟨spec, wide, printed⟩ := field conversion (decimals conversion listed)
    have body : numericText conversion n = Text.signed n := by
      simp only [List.mem_cons, List.not_mem_nil, or_false] at listed
      rcases listed with rfl | rfl <;> rfl
    rw [body] at printed
    refine ⟨_, printed, ?_, ?_⟩
    · rw [pad_length, wide, signed_eq_toString, String.length_toList]
    · apply integerArgument_numeral _ n _ range
      rw [String.toList_ofList]
      exact signed_kept spec n
  · obtain ⟨m, rfl⟩ := Int.eq_ofNat_of_zero_le positive
    have small : m < 2 ^ 63 := by omega
    obtain ⟨spec, wide, printed⟩ := field conversion (hexadecimals conversion listed)
    obtain ⟨read, long⟩ := natural?_hex conversion m small listed
    have kept := digits_kept spec 16 m _ (by decide) small read
    refine ⟨_, printed, ?_, integerArgument_hex _ m kept⟩
    rw [pad_length, wide, long, Int.toNat_natCast]
  · obtain ⟨m, rfl⟩ := Int.eq_ofNat_of_zero_le positive
    have small : m < 2 ^ 63 := by omega
    obtain ⟨spec, wide, printed⟩ := field 'o' (by decide)
    rw [numericText_octal m small] at printed
    have read := Text.natural?_lower 8 m (by decide) (by decide)
    refine ⟨_, printed, ?_, digits_kept spec 8 m _ (by decide) small read⟩
    rw [pad_length, wide, Int.toNat_natCast]

theorem padding_keeps_number_lowest :
    let specifier := "% +025d".toList
    Text.Numeral "-9223372036854775808".toList (-2 ^ 63) ∧
    ∃ field, Prints specifier "-9223372036854775808" field ∧ field.length = 25 ∧
      integerArgument (String.ofList (unpadded field)) = .ok (-2 ^ 63) := by
  intro specifier
  have given : Text.Numeral "-9223372036854775808".toList (-2 ^ 63) :=
    ((Text.word?_eq_some_iff _ _).mp (by rfl)).1
  have decimal : ∀ c ∈ ['0', '2', '5'], '0' ≤ c ∧ c ≤ '9' := by simp
  have kept := (padding_keeps_number [' ', '+'] ['0', '2', '5'] (by simp) decimal (by decide)
    "-9223372036854775808" _ given (by decide)).1 'd' (by decide)
  exact ⟨given, kept⟩

end ShellWalk.Printf
