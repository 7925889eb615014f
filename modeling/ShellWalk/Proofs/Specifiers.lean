import ShellWalk.Proofs.Checked.Printf
import ShellWalk.Proofs.Logging
import ShellWalk.Proofs.Padding

set_option autoImplicit false

namespace ShellWalk

theorem Text.exists_run (accepts : Char → Bool) (text : List Char) : ∃ front rest,
    text = front ++ rest ∧ (∀ c ∈ front, accepts c = true) ∧
      ∀ c ∈ rest.head?, accepts c = false := by
  refine ⟨text.takeWhile accepts, text.dropWhile accepts, ?_, ?_, ?_⟩
  · exact List.takeWhile_append_dropWhile.symm
  · exact List.all_eq_true.mp List.all_takeWhile
  · intro c first
    have stopped := List.head?_dropWhile_not accepts text
    rw [Option.mem_def] at first
    rw [first] at stopped
    simpa using stopped

theorem Text.isDigit_iff (c : Char) : Text.isDigit c = true ↔ '0' ≤ c ∧ c ≤ '9' := by
  simp [Text.isDigit]

namespace Printf

structure Layout where
  flags : List Char
  width : List Char
  precision : Option (List Char)
deriving DecidableEq, Repr

namespace Layout

def point (layout : Layout) : List Char := layout.precision.elim [] ('.' :: ·)

def text (layout : Layout) : List Char := layout.flags ++ (layout.width ++ layout.point)

def sizes (layout : Layout) : List (List Char) := layout.width :: layout.precision.toList

def flagMarks : List Char := ['-', '0', '+', ' ', '#']

-- Each run is of its kind, and as long as it can be with this text behind the layout.
structure Before (layout : Layout) (rest : List Char) : Prop where
  flagged : ∀ c ∈ layout.flags, c ∈ flagMarks
  decimal : ∀ digits ∈ layout.sizes, ∀ c ∈ digits, '0' ≤ c ∧ c ≤ '9'
  behindFlags : ∀ c ∈ (layout.width ++ (layout.point ++ rest)).head?, c ∉ flagMarks
  behindWidth : ∀ c ∈ (layout.point ++ rest).head?, ¬ ('0' ≤ c ∧ c ≤ '9')
  behindPoint : if layout.precision.isSome then ∀ c ∈ rest.head?, ¬ ('0' ≤ c ∧ c ≤ '9')
    else rest.head? ≠ some '.'

-- What a specifier says of its layout. A run above the largest size counts for no size.
structure Describes (layout : Layout) (spec : Spec) : Prop where
  leftAlign : spec.leftAlign = true ↔ '-' ∈ layout.flags
  zeroPad : spec.zeroPad = true ↔ '0' ∈ layout.flags
  pointed : spec.precision.isSome = layout.precision.isSome
  width : spec.width ≤ 2 ^ 20
  precision : ∀ size ∈ spec.precision, size ≤ 2 ^ 20
  oversized : spec.oversized = layout.sizes.find? (2 ^ 20 < Text.decimalValue ·)
  exact : spec.oversized = none → spec.width = Text.decimalValue layout.width ∧
    spec.precision = layout.precision.map Text.decimalValue

end Layout

theorem isFlag_iff (c : Char) : isFlag c = true ↔ c ∈ Layout.flagMarks := by
  simp [isFlag, Layout.flagMarks, or_assoc]

theorem sizeOf_le (digits : List Char) : Printf.sizeOf digits ≤ 2 ^ 20 := by
  unfold Printf.sizeOf
  split
  · assumption
  · exact Nat.zero_le _

section Runs

variable (digits : List Char) (decimal : ∀ c ∈ digits, '0' ≤ c ∧ c ≤ '9')

include decimal

theorem oversized?_eq : oversized? digits = [digits].find? (2 ^ 20 < Text.decimalValue ·) := by
  have limit : maxSize = 2 ^ 20 := rfl
  unfold oversized?
  rw [sizeValue_decimal digits decimal, limit]
  by_cases fits : Text.decimalValue digits ≤ 2 ^ 20
  · rw [if_pos fits, List.find?_cons_of_neg (by simpa using fits)]
    rfl
  · rw [if_neg fits, List.find?_cons_of_pos (by simpa using fits)]

theorem sizeOf_eq (fits : oversized? digits = none) :
    Printf.sizeOf digits = Text.decimalValue digits := by
  unfold oversized? at fits
  split at fits
  · rename_i small
    rw [Printf.sizeOf, if_pos small, sizeValue_decimal digits decimal]
  · cases fits

end Runs

namespace Layout

variable {layout : Layout} {rest : List Char}

theorem exists_before (text : List Char) :
    ∃ (layout : Layout) (rest : List Char), text = layout.text ++ rest ∧ layout.Before rest := by
  obtain ⟨flags, sized, rfl, flagged, behindFlags⟩ := Text.exists_run isFlag text
  obtain ⟨width, ending, rfl, decimal, behindWidth⟩ := Text.exists_run Text.isDigit sized
  have marks : ∀ c ∈ flags, c ∈ flagMarks := fun c member => (isFlag_iff c).mp (flagged c member)
  have noMark : ∀ c ∈ (width ++ ending).head?, c ∉ flagMarks := fun c first mark =>
    absurd ((isFlag_iff c).mpr mark) (by simp [behindFlags c first])
  have digits : ∀ {front : List Char}, (∀ c ∈ front, Text.isDigit c = true) →
      ∀ c ∈ front, '0' ≤ c ∧ c ≤ '9' := fun run c member => (Text.isDigit_iff c).mp (run c member)
  have noDigit : ∀ {front : List Char}, (∀ c ∈ front.head?, Text.isDigit c = false) →
      ∀ c ∈ front.head?, ¬ ('0' ≤ c ∧ c ≤ '9') := fun stop c first digit =>
    absurd ((Text.isDigit_iff c).mpr digit) (by simp [stop c first])
  by_cases pointed : ending.head? = some '.'
  · obtain ⟨tail, rfl⟩ := List.head?_eq_some_iff.mp pointed
    obtain ⟨precision, rest, rfl, precise, behindPoint⟩ := Text.exists_run Text.isDigit tail
    refine ⟨⟨flags, width, some precision⟩, rest, by simp [text, point], marks, ?_, noMark,
      noDigit behindWidth, noDigit behindPoint⟩
    simp only [sizes, Option.toList_some, List.mem_cons, List.not_mem_nil, or_false]
    rintro run (rfl | rfl)
    · exact digits decimal
    · exact digits precise
  · refine ⟨⟨flags, width, none⟩, ending, by simp [text, point], marks, ?_, noMark,
      noDigit behindWidth, pointed⟩
    simp only [sizes, Option.toList_none, List.mem_singleton]
    rintro run rfl
    exact digits decimal

theorem Before.width (fits : layout.Before rest) : ∀ c ∈ layout.width, '0' ≤ c ∧ c ≤ '9' :=
  fits.decimal _ (List.mem_cons_self ..)

theorem Before.precision (fits : layout.Before rest) :
    ∀ digits ∈ layout.precision, ∀ c ∈ digits, '0' ≤ c ∧ c ≤ '9' := fun digits present =>
  fits.decimal digits (List.mem_cons_of_mem _ (Option.mem_toList.mpr present))

theorem Before.head (fits : layout.Before rest) : layout.Before rest.head?.toList := by
  cases rest with
  | nil => exact fits
  | cons c later =>
      have same : ∀ front : List Char, (front ++ [c]).head? = (front ++ c :: later).head? := by
        intro front
        cases front <;> rfl
      refine ⟨fits.flagged, fits.decimal, ?_, ?_, fits.behindPoint⟩
      · have behind := fits.behindFlags
        rw [← List.append_assoc] at behind ⊢
        rwa [← same] at behind
      · have behind := fits.behindWidth
        rwa [← same] at behind

theorem readPrecision_before (fits : layout.Before rest) :
    readPrecision (layout.point ++ rest) = (layout.precision, rest) := by
  have behind := fits.behindPoint
  have decimal := fits.precision
  unfold point
  cases found : layout.precision with
  | none =>
      rw [found] at behind
      change readPrecision rest = _
      unfold readPrecision
      split
      · exact absurd rfl behind
      · rfl
  | some digits =>
      rw [found] at behind
      have accepted : ∀ c ∈ digits, Text.isDigit c = true := fun c member =>
        (Text.isDigit_iff c).mpr (decimal digits found c member)
      have ended : ∀ c ∈ rest.head?, Text.isDigit c = false := fun c first =>
        Bool.eq_false_iff.mpr fun digit => behind c first ((Text.isDigit_iff c).mp digit)
      change readPrecision ('.' :: (digits ++ rest)) = _
      rw [readPrecision, Text.takeWhile_run Text.isDigit digits rest accepted ended,
        Text.dropWhile_run Text.isDigit digits rest accepted ended]

theorem oversized_before (fits : layout.Before rest) :
    (oversized? layout.width).or (layout.precision.bind oversized?) =
      layout.sizes.find? (2 ^ 20 < Text.decimalValue ·) := by
  have later : layout.precision.bind oversized? =
      layout.precision.toList.find? (2 ^ 20 < Text.decimalValue ·) := by
    cases found : layout.precision with
    | none => rfl
    | some digits => exact oversized?_eq digits (fits.precision digits found)
  rw [later, oversized?_eq _ fits.width, ← List.find?_append]
  rfl

theorem readSpec_before (fits : layout.Before rest) : ∃ spec : Spec,
    readSpec (layout.text ++ rest) = (spec, rest.tail) ∧ layout.Describes spec ∧
      spec.conversion = rest.head? := by
  have flagged : ∀ c ∈ layout.flags, isFlag c = true := fun c member =>
    (isFlag_iff c).mpr (fits.flagged c member)
  have behindFlags : ∀ c ∈ (layout.width ++ (layout.point ++ rest)).head?, isFlag c = false :=
    fun c first => Bool.eq_false_iff.mpr fun flag =>
      fits.behindFlags c first ((isFlag_iff c).mp flag)
  have decimal : ∀ c ∈ layout.width, Text.isDigit c = true := fun c member =>
    (Text.isDigit_iff c).mpr (fits.width c member)
  have behindWidth : ∀ c ∈ (layout.point ++ rest).head?, Text.isDigit c = false :=
    fun c first => Bool.eq_false_iff.mpr fun digit =>
      fits.behindWidth c first ((Text.isDigit_iff c).mp digit)
  have closing : readConversion rest = (rest.head?, rest.tail) := by cases rest <;> rfl
  have read := readSpec_runs _ _ _ flagged behindFlags decimal behindWidth
  rw [readPrecision_before fits, closing] at read
  refine ⟨_, by simpa only [text, List.append_assoc] using read, ?_, rfl⟩
  refine ⟨by simp, by simp, by simp, sizeOf_le _, ?_, oversized_before fits, ?_⟩
  · intro size present
    obtain ⟨digits, _, rfl⟩ := Option.map_eq_some_iff.mp present
    exact sizeOf_le digits
  · intro clean
    obtain ⟨wide, precise⟩ := Option.or_eq_none_iff.mp clean
    refine ⟨sizeOf_eq _ fits.width wide, ?_⟩
    cases found : layout.precision with
    | none => rfl
    | some digits =>
        rw [found] at precise
        exact congrArg some (sizeOf_eq digits (fits.precision digits found) precise)

theorem specAt_before (chars : List Char) (place : Nat)
    (ahead : chars.drop place = '%' :: (layout.text ++ rest)) (fits : layout.Before rest) :
    ∃ spec : Spec, layout.Describes spec ∧ spec.conversion = rest.head? ∧
      readSpec (layout.text ++ rest) = (spec, rest.tail) ∧
      specAt chars place = .ok (spec, 1 + layout.text.length + rest.head?.toList.length) := by
  obtain ⟨spec, read, described, conversion⟩ := readSpec_before fits
  have inside := Checked.ahead_lt chars place _ _ ahead
  obtain ⟨taken, found, behind, _, bounded⟩ :=
    specAt_ok chars place _ (Checked.ahead_rest chars place _ _ ahead) inside
  have length : taken = 1 + layout.text.length + rest.head?.toList.length := by
    have whole := congrArg List.length ahead
    have left := congrArg List.length behind
    have split : rest.length = rest.head?.toList.length + rest.tail.length := by
      cases rest <;> simp [Nat.add_comm]
    rw [read] at left
    simp only [List.length_drop, List.length_cons, List.length_append] at whole left
    omega
  rw [read, length] at found
  exact ⟨spec, described, conversion, read, found⟩

end Layout

inductive Spells : List Char → Piece → Prop where
  | plain (c : Char) : c ≠ '\\' → c ≠ '%' → Spells [c] (.literal [c])
  | escape (text : List Char) : text.length ≤ 1 →
      Spells ('\\' :: text) (.literal (readEscape text).1)
  | percent : Spells ['%', '%'] (.literal ['%'])
  | field (layout : Layout) (spec : Spec) : layout.Before spec.conversion.toList →
      layout.Describes spec →
      Spells ('%' :: (layout.text ++ spec.conversion.toList)) (.field spec)

-- The stretches from a place on to the end, one for each piece. Read at its own place, a field has
-- just the characters of its stretch.
structure Cut (chars : List Char) (place : Nat) (stretches : List (List Char))
    (format : List Piece) : Prop where
  whole : stretches.flatten = chars.drop place
  spelled : stretches.Forall₂ Spells format
  fields : ∀ index spec, format[index]? = some (.field spec) →
    ∃ stretch, stretches[index]? = some stretch ∧
      specAt chars (place + (stretches.take index).flatten.length) = .ok (spec, stretch.length)

theorem Spells.nonempty {stretch : List Char} {piece : Piece} (spelled : Spells stretch piece) :
    stretch ≠ [] := by
  cases spelled <;> exact List.cons_ne_nil _ _

theorem Cut.nonempty {chars : List Char} {place : Nat} {stretches : List (List Char)}
    {format : List Piece} (cut : Cut chars place stretches format) : [] ∉ stretches := by
  have spelled := cut.spelled
  clear cut
  induction spelled with
  | nil => simp
  | cons first _ ih => simp [ih, first.nonempty.symm]

section Cutting

variable {chars stretch rest : List Char} {place : Nat}

theorem drop_stretch (ahead : chars.drop place = stretch ++ rest) :
    chars.drop (place + stretch.length) = rest := by
  rw [← List.drop_drop, ahead, List.drop_left]

theorem Cut.cons {piece : Piece} {stretches : List (List Char)} {later : List Piece}
    (ahead : chars.drop place = stretch ++ rest) (spelled : Spells stretch piece)
    (found : ∀ spec, piece = .field spec → specAt chars place = .ok (spec, stretch.length))
    (cut : Cut chars (place + stretch.length) stretches later) :
    Cut chars place (stretch :: stretches) (piece :: later) := by
  refine ⟨?_, .cons spelled cut.spelled, ?_⟩
  · rw [List.flatten_cons, cut.whole, drop_stretch ahead, ahead]
  · intro index spec present
    cases index with
    | zero => exact ⟨stretch, rfl, found spec (Option.some.inj present)⟩
    | succ index =>
        obtain ⟨own, listed, read⟩ := cut.fields index spec present
        refine ⟨own, listed, ?_⟩
        rwa [List.take_succ_cons, List.flatten_cons, List.length_append, ← Nat.add_assoc]

end Cutting

theorem readEscape_front (text : List Char) : ∃ front, text = front ++ (readEscape text).2 ∧
    front.length ≤ 1 ∧ (readEscape front).1 = (readEscape text).1 := by
  cases text with
  | nil => exact ⟨[], rfl, Nat.zero_le _, rfl⟩
  | cons c rest =>
      refine ⟨[c], ?_, Nat.le_refl _, ?_⟩
      · rw [readEscape]
        repeat' split
        all_goals rfl
      · rw [readEscape, readEscape]
        repeat' split
        all_goals rfl

theorem pieces_cut (chars : List Char) (place : Nat) (text : List Char)
    (ahead : chars.drop place = text) :
    ∃ stretches, Cut chars place stretches (pieces text) := by
  fun_induction pieces text generalizing place with
  | case1 => exact ⟨[], ahead.symm, .nil, by simp⟩
  | case2 rest ih =>
      obtain ⟨front, same, short, read⟩ := readEscape_front rest
      have split : chars.drop place = ('\\' :: front) ++ (readEscape rest).2 := by
        rw [ahead, List.cons_append, ← same]
      obtain ⟨stretches, cut⟩ := ih _ (drop_stretch split)
      rw [← read]
      exact ⟨_, cut.cons split (.escape front short) (by simp)⟩
  | case3 rest doubled percent ih =>
      obtain ⟨tail, rfl⟩ := List.head?_eq_some_iff.mp doubled
      have split : chars.drop place = ['%', '%'] ++ tail := ahead
      obtain ⟨stretches, cut⟩ := ih _ (drop_stretch split)
      exact ⟨_, cut.cons split .percent (by simp)⟩
  | case4 rest single percent ih =>
      obtain ⟨layout, behind, rfl, fits⟩ := Layout.exists_before rest
      obtain ⟨spec, described, conversion, read, found⟩ :=
        Layout.specAt_before chars place ahead fits
      have tight := fits.head
      rw [← conversion] at tight found
      have split : chars.drop place =
          ('%' :: (layout.text ++ spec.conversion.toList)) ++ behind.tail := by
        rw [ahead, conversion, List.cons_append, List.append_assoc]
        cases behind <;> rfl
      rw [read] at ih ⊢
      obtain ⟨stretches, cut⟩ := ih _ (drop_stretch split)
      refine ⟨_, cut.cons split (.field layout spec tight described) ?_⟩
      rintro _ ⟨⟩
      rw [found]
      congr 2
      simp only [List.length_cons, List.length_append]
      omega
  | case5 c rest plain other ih =>
      have split : chars.drop place = [c] ++ rest := ahead
      obtain ⟨stretches, cut⟩ := ih _ (drop_stretch split)
      exact ⟨_, cut.cons split (.plain c plain other) (by simp)⟩

section Padding

variable (spec : Spec)

theorem pad_bounded (numeric : Bool) (body : List Char) :
    (pad spec numeric body).length ≤ spec.width ∨
      pad { spec with width := 0 } numeric body = pad spec numeric body := by
  by_cases full : spec.width ≤ body.length
  · right
    simp only [pad, Nat.sub_eq_zero_of_le full, Nat.zero_sub]
  · left
    rw [pad_length]
    omega

theorem render_bounded (argument : String) (text : List Char)
    (rendered : spec.render argument = .ok text) :
    text.length ≤ spec.width ∨ { spec with width := 0 }.render argument = .ok text := by
  have field : ∀ numeric body, (.ok (pad spec numeric body) : Except Failure _) = .ok text →
      text.length ≤ spec.width ∨
        (.ok (pad { spec with width := 0 } numeric body) : Except Failure _) = .ok text := by
    rintro numeric body ⟨⟩
    exact (pad_bounded spec numeric body).imp_right (congrArg Except.ok)
  unfold Spec.render at rendered ⊢
  cases asked : spec.conversion with
  | none =>
      rw [asked] at rendered
      exact .inr rendered
  | some conversion =>
      cases beyond : spec.oversized with
      | some digits =>
          rw [asked, beyond] at rendered
          cases rendered
      | none =>
          simp only [asked, beyond] at rendered ⊢
          by_cases string : conversion = 's'
          · rw [if_pos string] at rendered ⊢
            exact field _ _ rendered
          · rw [if_neg string] at rendered ⊢
            by_cases character : conversion = 'c'
            · rw [if_pos character] at rendered ⊢
              exact field _ _ rendered
            · rw [if_neg character] at rendered ⊢
              by_cases numeric : isNumeric conversion
              · rw [if_pos numeric] at rendered ⊢
                cases read : integerArgument argument with
                | error failure =>
                    rw [read] at rendered
                    cases rendered
                | ok n =>
                    rw [read] at rendered
                    exact field _ _ rendered
              · rw [if_neg numeric] at rendered ⊢
                exact .inr rendered

end Padding

theorem pass_append (front back : List Piece) (arguments : List String) :
    pass (front ++ back) arguments =
      ((pass front arguments).1.append (pass back (pass front arguments).2).1,
        (pass back (pass front arguments).2).2) := by
  induction front generalizing arguments with
  | nil => rfl
  | cons piece rest ih => rw [List.cons_append, pass_cons, pass_cons, ih, Printed.append_assoc]

def Visit.complaints (visit : Visit) : List String :=
  Text.linesOf (String.ofList visit.printed.diagnostics)

theorem Failure.message_ended (failure : Failure) :
    ∃ line, failure.message.toList = line ++ ['\n'] := by
  cases failure with
  | outOfRange digits =>
      exact ⟨("printf: " ++ String.ofList digits ++ ": Numerical result out of range").toList,
        by simp [Failure.message]⟩
  | invalidNumber text =>
      exact ⟨("printf: '" ++ text ++ "': invalid number").toList, by simp [Failure.message]⟩

theorem lines_visit (visit : Visit) (later : List Char) :
    Text.lines (visit.printed.diagnostics ++ later) =
      Text.lines visit.printed.diagnostics ++ Text.lines later := by
  have whole : visit.printed.diagnostics = [] ∨
      ∃ line, visit.printed.diagnostics = line ++ ['\n'] := by
    obtain ⟨piece, argument⟩ := visit
    cases piece with
    | literal text => exact .inl rfl
    | field spec =>
        simp only [Visit.printed]
        cases spec.render argument with
        | ok text => exact .inl rfl
        | error failure => exact .inr failure.message_ended
  rcases whole with none | ⟨line, ended⟩
  · rw [none]
    rfl
  · rw [ended, List.append_assoc, List.singleton_append, Text.lines_append, Text.lines_ended]

theorem together_visits (made : List Visit) :
    together (made.map Visit.printed) =
      ⟨made.flatMap fun visit => visit.printed.output,
        made.flatMap fun visit => visit.printed.diagnostics⟩ := by
  induction made with
  | nil => rfl
  | cons visit rest ih =>
      rw [List.flatMap_cons, List.flatMap_cons]
      change visit.printed.append (together (rest.map Visit.printed)) = _
      rw [ih]
      rfl

theorem lines_visits (made : List Visit) :
    Text.linesOf (String.ofList (made.flatMap fun visit => visit.printed.diagnostics)) =
      made.flatMap Visit.complaints := by
  induction made with
  | nil => rfl
  | cons visit rest ih =>
      rw [Text.linesOf, String.toList_ofList] at ih ⊢
      rw [List.flatMap_cons, List.flatMap_cons, lines_visit, List.map_append, ih, Visit.complaints,
        Text.linesOf, String.toList_ofList]

theorem linesOf_outOfRange (digits : List Char) (decimal : ∀ c ∈ digits, '0' ≤ c ∧ c ≤ '9') :
    Text.linesOf (Failure.outOfRange digits).message =
      ["printf: " ++ String.ofList digits ++ ": Numerical result out of range"] := by
  generalize line : "printf: " ++ String.ofList digits ++ ": Numerical result out of range" = text
  have message : (Failure.outOfRange digits).message = String.ofList (text.toList ++ ['\n']) := by
    rw [← String.toList_inj, String.toList_ofList]
    simp [Failure.message, ← line]
  have foreign : ∀ c, ¬ '0' ≤ c → c ∉ digits := fun c low member => low (decimal c member).1
  have unbroken : '\n' ∉ text.toList := by simpa [← line] using foreign '\n' (by decide)
  have bare : '\r' ∉ text.toList := by simpa [← line] using foreign '\r' (by decide)
  rw [message, Text.linesOf_line text unbroken bare]

theorem Spells.decimal {stretch digits : List Char} {spec : Spec}
    (spelled : Spells stretch (.field spec)) (beyond : spec.oversized = some digits) :
    ∀ c ∈ digits, '0' ≤ c ∧ c ≤ '9' := by
  cases spelled with
  | field layout _ fits described =>
      rw [described.oversized] at beyond
      exact fits.decimal digits (List.mem_of_find?_eq_some beyond)

theorem Spells.width {stretch : List Char} {spec : Spec}
    (spelled : Spells stretch (.field spec)) : spec.width ≤ 2 ^ 20 := by
  cases spelled with
  | field layout _ _ described => exact described.width

theorem field_spelled (format : List Char) (spec : Spec) (listed : .field spec ∈ pieces format) :
    ∃ stretch, Spells stretch (.field spec) := by
  obtain ⟨stretches, cut⟩ := pieces_cut format 0 format rfl
  obtain ⟨index, inside, same⟩ := List.mem_iff_getElem.mp listed
  have spelled := cut.spelled.get (cut.spelled.length_eq ▸ inside) inside
  rw [List.get_eq_getElem, List.get_eq_getElem, same] at spelled
  exact ⟨_, spelled⟩

theorem takesArgument_iff (conversion : Char) :
    takesArgument conversion = true ↔ conversion ∈ ['s', 'c', 'd', 'i', 'x', 'X', 'o'] := by
  simp [takesArgument, isNumeric, or_assoc]

theorem printed_oversized (spec : Spec) (digits : List Char) (conversion : Char)
    (argument : String) (beyond : spec.oversized = some digits)
    (asked : spec.conversion = some conversion) :
    (Visit.mk (.field spec) argument).printed =
      ⟨[], (Failure.outOfRange digits).message.toList⟩ := by
  rw [Visit.printed, Spec.render, asked, beyond]
  rfl

theorem pass_oversized (front back : List Piece) (spec : Spec) (digits : List Char)
    (conversion : Char) (beyond : spec.oversized = some digits)
    (asked : spec.conversion = some conversion) (arguments : List String) :
    let left := (pass front arguments).2
    let later := pass back
      (if conversion ∈ ['s', 'c', 'd', 'i', 'x', 'X', 'o'] then left.tail else left)
    pass (front ++ .field spec :: back) arguments =
      (⟨(pass front arguments).1.output ++ later.1.output,
        (pass front arguments).1.diagnostics ++
          ((Failure.outOfRange digits).message.toList ++ later.1.diagnostics)⟩, later.2) := by
  intro left later
  have leaves : Piece.leaves (.field spec) left =
      if conversion ∈ ['s', 'c', 'd', 'i', 'x', 'X', 'o'] then left.tail else left := by
    simp only [Piece.leaves, Piece.consumes, Spec.consumes, asked, Option.any_some,
      takesArgument_iff]
  rw [pass_append, pass_cons, leaves, printed_oversized spec digits conversion _ beyond asked]
  rfl

theorem run_visits (host : Host) (context : Context) (format : String)
    (arguments : List String) :
    let made := (rounds (pieces format.toList) arguments).flatten
    ∃ after, Registry.standard.run host "printf" (format :: arguments) context = .ok after ∧
      after.output = context.output ++
        Text.linesOf (String.ofList (made.flatMap fun visit => visit.printed.output)) ∧
      after.errors = context.errors ++ made.flatMap Visit.complaints ∧
      ∀ visit ∈ made, visit.printed.diagnostics ≠ [] → after.exitCode = 1 := by
  intro made
  have finished : completion (format :: arguments) = complete _ :=
    congrArg complete ((passes_eq_rounds _ arguments).trans (together_visits made))
  refine ⟨_, run_printf host context format arguments, ?_, ?_, ?_⟩
  · rw [finished, Context.write_eq]
    rfl
  · rw [finished, Context.write_eq, ← lines_visits]
    rfl
  · intro visit met failed
    rw [finished]
    exact if_neg fun none => failed (List.flatMap_eq_nil_iff.mp none visit met)

theorem visit_listed (format : List Piece) (arguments : List String) (visit : Visit)
    (met : visit ∈ (rounds format arguments).flatten) : visit.piece ∈ format := by
  obtain ⟨round, listed, inside⟩ := List.mem_flatten.mp met
  rw [← rounds_piece format arguments round listed]
  exact List.mem_map_of_mem inside

theorem specifiers_bounded :
    (∀ (chars : List Char) (place : Nat), chars[place]? = some '%' →
      ∃ (layout : Layout) (rest : List Char) (spec : Spec) (taken : Nat),
        chars.drop place = '%' :: (layout.text ++ rest) ∧ layout.Before rest ∧
        specAt chars place = .ok (spec, taken) ∧ 1 ≤ taken ∧ place + taken ≤ chars.length ∧
        readSpec (chars.drop (place + 1)) = (spec, chars.drop (place + taken)) ∧
        layout.Describes spec ∧ spec.conversion = rest.head? ∧
        (spec.conversion = none ↔ place + 1 + layout.text.length = chars.length)) ∧
    (∀ format : List Char, ∃ stretches, stretches.flatten = format ∧ [] ∉ stretches ∧
      Cut format 0 stretches (pieces format) ∧
      ∀ arguments, ∀ round ∈ rounds (pieces format) arguments,
        stretches.Forall₂ Spells (round.map Visit.piece)) ∧
    (∀ format spec, .field spec ∈ pieces format →
      ∀ argument text, spec.render argument = .ok text →
        text.length ≤ 2 ^ 20 ∨ { spec with width := 0 }.render argument = .ok text) ∧
    (∀ (host : Host) (context : Context) (format : String) (arguments : List String),
      let made := (rounds (pieces format.toList) arguments).flatten
      ∃ after, Registry.standard.run host "printf" (format :: arguments) context = .ok after ∧
        after.output = context.output ++
          Text.linesOf (String.ofList (made.flatMap fun visit => visit.printed.output)) ∧
        after.errors = context.errors ++ made.flatMap Visit.complaints ∧
        ∀ spec digits conversion, spec.oversized = some digits →
          spec.conversion = some conversion → ∀ argument, ⟨.field spec, argument⟩ ∈ made →
          (Visit.mk (.field spec) argument).printed.output = [] ∧ after.exitCode = 1 ∧
          (Visit.mk (.field spec) argument).complaints =
            ["printf: " ++ String.ofList digits ++ ": Numerical result out of range"]) ∧
    ∀ front back spec digits conversion, spec.oversized = some digits →
      spec.conversion = some conversion → ∀ arguments,
      let left := (pass front arguments).2
      let later := pass back
        (if conversion ∈ ['s', 'c', 'd', 'i', 'x', 'X', 'o'] then left.tail else left)
      pass (front ++ .field spec :: back) arguments =
        (⟨(pass front arguments).1.output ++ later.1.output,
          (pass front arguments).1.diagnostics ++
            ((Failure.outOfRange digits).message.toList ++ later.1.diagnostics)⟩, later.2) := by
  refine ⟨?_, ?_, ?_, ?_, ?_⟩
  · intro chars place percent
    obtain ⟨inside, first⟩ := List.getElem?_eq_some_iff.mp percent
    obtain ⟨layout, rest, same, fits⟩ := Layout.exists_before (chars.drop (place + 1))
    have ahead : chars.drop place = '%' :: (layout.text ++ rest) := by
      rw [List.drop_eq_getElem_cons inside, first, same]
    obtain ⟨spec, read, described, conversion⟩ := Layout.readSpec_before fits
    obtain ⟨taken, found, behind, positive, bounded⟩ := specAt_ok chars place _ same inside
    rw [read] at found behind
    refine ⟨layout, rest, spec, taken, ahead, fits, found, positive, bounded, ?_, described,
      conversion, ?_⟩
    · rw [same, read, behind]
    · have length := congrArg List.length ahead
      simp only [List.length_drop, List.length_cons, List.length_append] at length
      rw [conversion, List.head?_eq_none_iff, ← List.length_eq_zero_iff]
      omega
  · intro format
    obtain ⟨stretches, cut⟩ := pieces_cut format 0 format rfl
    refine ⟨stretches, cut.whole, cut.nonempty, cut, fun arguments round listed => ?_⟩
    rw [rounds_piece (pieces format) arguments round listed]
    exact cut.spelled
  · intro format spec listed argument text rendered
    obtain ⟨stretch, spelled⟩ := field_spelled format spec listed
    exact (render_bounded spec argument text rendered).imp_left spelled.width.trans'
  · intro host context format arguments made
    obtain ⟨after, ran, output, errors, code⟩ := run_visits host context format arguments
    refine ⟨after, ran, output, errors, fun spec digits conversion beyond asked argument met => ?_⟩
    have printed := printed_oversized spec digits conversion argument beyond asked
    obtain ⟨stretch, spelled⟩ := field_spelled format.toList spec (visit_listed _ arguments _ met)
    have complaint := linesOf_outOfRange digits (spelled.decimal beyond)
    refine ⟨by rw [printed], code _ met ?_, ?_⟩
    · obtain ⟨line, ended⟩ := (Failure.outOfRange digits).message_ended
      rw [printed, ended]
      simp
    · rw [Visit.complaints, printed, String.ofList_toList, complaint]
  · exact pass_oversized

theorem specifiers_bounded_overlong :
    let format := "%5s|%-0099999999999999999999.3d|%s%1048577"
    let context := Context.start .simulate .empty false
    format.toList[4]? = some '%' ∧
    (∃ spec taken, specAt format.toList 4 = .ok (spec, taken) ∧ 1 ≤ taken ∧
      4 + taken ≤ format.toList.length) ∧
    ∃ after, Registry.standard.run .void "printf" [format, "a", "b", "c"] context = .ok after ∧
      after.output = ["    a||c%"] ∧ after.exitCode = 1 ∧
      after.errors = ["printf: 99999999999999999999: Numerical result out of range"] := by
  intro format context
  have percent : format.toList[4]? = some '%' := by decide
  obtain ⟨_, _, spec, taken, _, _, read, positive, bounded, _⟩ :=
    specifiers_bounded.1 format.toList 4 percent
  have finished : completion [format, "a", "b", "c"] = ⟨"    a||c%",
      "printf: 99999999999999999999: Numerical result out of range\n", 1⟩ := by
    decide +kernel
  have ran := run_printf .void context format ["a", "b", "c"]
  rw [finished] at ran
  exact ⟨percent, ⟨spec, taken, read, positive, bounded⟩, _, ran, by decide +kernel, rfl,
    by decide +kernel⟩

end Printf

end ShellWalk
