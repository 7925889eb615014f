import ShellWalk.Command.Printf
import ShellWalk.Proofs.Checked.Slice

set_option autoImplicit false

namespace ShellWalk.Printf

open Checked

def passOver (accepts : Char → Bool) (chars : List Char) (place : Nat) : Nat :=
  if _ : place < chars.length then
    if accepts chars[place] then passOver accepts chars (place + 1) else place
  else place
termination_by chars.length - place

def flagsAt (chars : List Char) (place : Nat) (leftAlign zeroPad : Bool) : Bool × Bool × Nat :=
  if _ : place < chars.length then
    let c := chars[place]
    if c = '-' then flagsAt chars (place + 1) true zeroPad
    else if c = '0' then flagsAt chars (place + 1) leftAlign true
    else if c = '+' ∨ c = ' ' ∨ c = '#' then flagsAt chars (place + 1) leftAlign zeroPad
    else (leftAlign, zeroPad, place)
  else (leftAlign, zeroPad, place)
termination_by chars.length - place

def digitsAt (chars : List Char) (place : Nat) : Except String (Option (List Char) × Nat) :=
  let stop := passOver Text.isDigit chars place
  if place < stop then do
    let digits ← between chars place stop
    .ok (some digits, stop)
  else .ok (none, stop)

def precisionAt (chars : List Char) (place : Nat) :
    Except String (Option (Option (List Char)) × Nat) :=
  if chars[place]? = some '.' then do
    let (digits, stop) ← digitsAt chars (place + 1)
    .ok (some digits, stop)
  else .ok (none, place)

def specAt (chars : List Char) (place : Nat) : Except String (Spec × Nat) := do
  let (leftAlign, zeroPad, sized) := flagsAt chars (place + 1) false false
  let (width, pointed) ← digitsAt chars sized
  let (precision, ending) ← precisionAt chars pointed
  let conversion := chars[ending]?
  let taken ← minus ending place
  .ok ({ leftAlign := leftAlign
         zeroPad := zeroPad
         width := (width.map Printf.sizeOf).getD 0
         precision := precision.map fun digits => (digits.map Printf.sizeOf).getD 0
         oversized := (width.bind oversized?).or ((precision.bind id).bind oversized?)
         conversion := conversion }, if conversion.isSome then taken + 1 else taken)

def escapeAt (chars : List Char) (place : Nat) : List Char × Nat :=
  match chars[place + 1]? with
  | none => (['\\'], 0)
  | some next =>
      match Text.letterEscape? next with
      | some control => ([control], 1)
      | none => if next = '\x22' then ([next], 1) else (['\\', next], 1)

-- A body that fills its field is left as it is, so that only a larger width is subtracted from.
def padAt (spec : Spec) (numeric : Bool) (body : List Char) : Except String (List Char) :=
  if spec.width ≤ body.length then .ok body
  else do
    let _fill ← minus spec.width body.length
    .ok (pad spec numeric body)

def renderAt (spec : Spec) (argument : String) : Except String (Except Failure (List Char)) :=
  match spec.conversion, spec.oversized with
  | none, _ => .ok (.ok ['%'])
  | some _, some digits => .ok (.error (.outOfRange digits))
  | some conversion, none =>
      if conversion = 's' then do
        let text ← padAt spec false (spec.precision.elim argument.toList fun size =>
          argument.toList.take size)
        .ok (.ok text)
      else if conversion = 'c' then do
        let text ← padAt spec false (argument.toList.take 1)
        .ok (.ok text)
      else if isNumeric conversion then
        match integerArgument argument with
        | .error failure => .ok (.error failure)
        | .ok n => do
            let text ← padAt spec true (numericText conversion n)
            .ok (.ok text)
      else .ok (.ok ['%', conversion])

def stuckMessage : String := "a field without characters"

def passAt (chars : List Char) (arguments : List String) (place index : Nat) :
    Except String (Printed × Nat) :=
  if _ : place < chars.length then do
    let c ← item chars place
    if c = '\\' then
      let (text, taken) := escapeAt chars place
      let later ← passAt chars arguments (place + 1 + taken) index
      .ok (.append ⟨text, []⟩ later.1, later.2)
    else if c = '%' then
      if chars[place + 1]? = some '%' then
        let later ← passAt chars arguments (place + 2) index
        .ok (.append ⟨['%'], []⟩ later.1, later.2)
      else
        let (spec, taken) ← specAt chars place
        let rendered ← renderAt spec (arguments[index]?.getD "")
        if _ : 0 < taken then
          let later ← passAt chars arguments (place + taken)
            (if spec.consumes then index + 1 else index)
          .ok (.append (.ofField rendered) later.1, later.2)
        else .error stuckMessage
    else
      let later ← passAt chars arguments (place + 1) index
      .ok (.append ⟨[c], []⟩ later.1, later.2)
  else .ok (.none, index)
termination_by chars.length - place

def passesAt (chars : List Char) (arguments : List String) (index : Nat) :
    Except String Printed := do
  let (printed, reached) ← passAt chars arguments 0 index
  if _ : index < reached ∧ reached < arguments.length then
    let later ← passesAt chars arguments reached
    .ok (printed.append later)
  else .ok printed
termination_by arguments.length - index

def checkedHandler : Handler := fun _ _ arguments context =>
  match arguments with
  | [] => .ok (usage.apply context)
  | format :: rest => do
      let printed ← passesAt format.toList rest 0
      .ok ((complete printed).apply (context.write (String.ofList printed.output)))

theorem passOver_eq (accepts : Char → Bool) (chars : List Char) (place : Nat) :
    passOver accepts chars place = place + ((chars.drop place).takeWhile accepts).length := by
  generalize same : chars.drop place = text
  induction text generalizing place with
  | nil =>
      rw [passOver, dif_neg (nothing_ahead chars place same).1]
      rfl
  | cons c rest ih =>
      have inside := ahead_lt chars place c rest same
      rw [passOver, dif_pos inside, ahead_getElem chars place c rest same inside]
      by_cases accepted : accepts c
      · simp only [if_pos accepted, ih (place + 1) (ahead_rest chars place c rest same),
          List.takeWhile_cons_of_pos accepted, List.length_cons]
        omega
      · simp [accepted]

theorem flagsAt_eq (chars : List Char) (place : Nat) (leftAlign zeroPad : Bool) :
    flagsAt chars place leftAlign zeroPad =
      (leftAlign || ((chars.drop place).takeWhile isFlag).contains '-',
        zeroPad || ((chars.drop place).takeWhile isFlag).contains '0',
        place + ((chars.drop place).takeWhile isFlag).length) := by
  generalize same : chars.drop place = text
  induction text generalizing place leftAlign zeroPad with
  | nil =>
      rw [flagsAt, dif_neg (nothing_ahead chars place same).1]
      simp
  | cons c rest ih =>
      have inside := ahead_lt chars place c rest same
      have later := fun left zero => ih (place + 1) left zero (ahead_rest chars place c rest same)
      rw [flagsAt, dif_pos inside, ahead_getElem chars place c rest same inside]
      have flagged : isFlag c = true → (c :: rest).takeWhile isFlag = c :: rest.takeWhile isFlag :=
        List.takeWhile_cons_of_pos
      have behind : place + (c :: rest.takeWhile isFlag).length =
          place + 1 + (rest.takeWhile isFlag).length := by
        rw [List.length_cons]
        omega
      by_cases left : c = '-'
      · rw [flagged (by simp [isFlag, left]), behind]
        simp [left, later]
      · by_cases zero : c = '0'
        · rw [flagged (by simp [isFlag, zero]), behind]
          simp [zero, later]
        · by_cases other : c = '+' ∨ c = ' ' ∨ c = '#'
          · rw [flagged (by rcases other with rfl | rfl | rfl <;> rfl), behind]
            simp [left, zero, other, later, Ne.symm left, Ne.symm zero]
          · have plain : isFlag c = false := by
              simp only [not_or] at other
              simp [isFlag, left, zero, other]
            simp [left, zero, other, plain]

theorem digitsAt_ok (chars : List Char) (place : Nat) (inside : place ≤ chars.length) :
    ∃ digits, digitsAt chars place =
        .ok (digits, place + ((chars.drop place).takeWhile Text.isDigit).length) ∧
      (digits.map Printf.sizeOf).getD 0 =
        Printf.sizeOf ((chars.drop place).takeWhile Text.isDigit) ∧
      digits.bind oversized? = oversized? ((chars.drop place).takeWhile Text.isDigit) := by
  unfold digitsAt
  rw [passOver_eq]
  by_cases none : (chars.drop place).takeWhile Text.isDigit = []
  · rw [none, if_neg (by simp)]
    exact ⟨_, rfl, rfl, rfl⟩
  · have some := List.length_pos_iff.mpr none
    rw [if_pos (by omega), between_takeWhile chars Text.isDigit place inside]
    exact ⟨_, rfl, rfl, rfl⟩

theorem precisionAt_ok (chars : List Char) (place : Nat) :
    ∃ precision ending, precisionAt chars place = .ok (precision, ending) ∧
      (precision.map fun digits => (digits.map Printf.sizeOf).getD 0) =
        (readPrecision (chars.drop place)).1.map Printf.sizeOf ∧
      (precision.bind id).bind oversized? =
        (readPrecision (chars.drop place)).1.bind oversized? ∧
      chars.drop ending = (readPrecision (chars.drop place)).2 ∧ place ≤ ending ∧
      (place ≤ chars.length → ending ≤ chars.length) := by
  unfold precisionAt
  by_cases point : chars[place]? = some '.'
  · have short := (List.getElem?_eq_some_iff.mp point).1
    have ahead : chars.drop place = '.' :: chars.drop (place + 1) := by
      rw [List.drop_eq_getElem_cons short, (List.getElem?_eq_some_iff.mp point).2]
    obtain ⟨digits, read, size, oversized⟩ := digitsAt_ok chars (place + 1) (by omega)
    rw [if_pos point, read, ahead, readPrecision]
    refine ⟨some digits, _, rfl, ?_, ?_, drop_takeWhile chars Text.isDigit (place + 1), by omega,
      fun _ => takeWhile_inside chars Text.isDigit (place + 1) short⟩
    · exact congrArg some size
    · exact oversized
  · have plain : readPrecision (chars.drop place) = (none, chars.drop place) := by
      unfold readPrecision
      split
      · rename_i rest same
        exact absurd (ahead_get chars place '.' rest same) point
      · rfl
    rw [if_neg point, plain]
    exact ⟨none, place, rfl, rfl, rfl, rfl, Nat.le_refl _, id⟩

-- The places of a scanner only grow, so the field has at least its percent sign, and they stop at
-- the end of the characters.
theorem specAt_ok (chars : List Char) (place : Nat) (text : List Char)
    (ahead : chars.drop (place + 1) = text) (inside : place < chars.length) :
    ∃ taken, specAt chars place = .ok ((readSpec text).1, taken) ∧
      chars.drop (place + taken) = (readSpec text).2 ∧ 0 < taken ∧
      place + taken ≤ chars.length := by
  have bounded := takeWhile_inside chars isFlag (place + 1) inside
  have behindFlags := drop_takeWhile chars isFlag (place + 1)
  rw [ahead] at bounded behindFlags
  generalize start : place + 1 + (text.takeWhile isFlag).length = sized at bounded behindFlags
  have behindWidth := drop_takeWhile chars Text.isDigit sized
  have within := takeWhile_inside chars Text.isDigit sized bounded
  obtain ⟨width, readWidth, widthSize, widthOver⟩ := digitsAt_ok chars sized bounded
  rw [behindFlags] at behindWidth readWidth widthSize widthOver within
  generalize next : sized + ((text.dropWhile isFlag).takeWhile Text.isDigit).length = pointed
    at behindWidth readWidth within
  obtain ⟨precision, ending, readPoint, precisionSize, precisionOver, behindPoint, grown, stays⟩ :=
    precisionAt_ok chars pointed
  have stopped := stays within
  rw [behindWidth] at precisionSize precisionOver behindPoint
  have read : ∀ conversion, chars[ending]? = conversion →
      specAt chars place = .ok ({ (readSpec text).1 with conversion := conversion },
        if conversion.isSome then ending - place + 1 else ending - place) := by
    rintro conversion rfl
    unfold specAt
    rw [flagsAt_eq, ahead, start]
    simp only [Bool.false_or, bind, Except.bind, readWidth, readPoint, widthSize, widthOver,
      precisionSize, precisionOver, minus_ok ending place (by omega), readSpec]
  cases last : (readPrecision ((text.dropWhile isFlag).dropWhile Text.isDigit)).2 with
  | nil =>
      rw [last] at behindPoint
      refine ⟨ending - place, ?_, ?_, by omega, by omega⟩
      · rw [read none (nothing_ahead chars ending behindPoint).2]
        simp [readSpec, last, readConversion]
      · rw [Nat.add_sub_cancel' (by omega), behindPoint]
        simp [readSpec, last, readConversion]
  | cons c rest =>
      rw [last] at behindPoint
      have before := ahead_lt chars ending c rest behindPoint
      refine ⟨ending - place + 1, ?_, ?_, by omega, by omega⟩
      · rw [read (some c) (ahead_get chars ending c rest behindPoint)]
        simp [readSpec, last, readConversion]
      · rw [← Nat.add_assoc, Nat.add_sub_cancel' (by omega),
          ahead_rest chars ending c rest behindPoint]
        simp [readSpec, last, readConversion]

theorem escapeAt_eq (chars : List Char) (place : Nat) (text : List Char)
    (ahead : chars.drop (place + 1) = text) :
    (escapeAt chars place).1 = (readEscape text).1 ∧
      chars.drop (place + 1 + (escapeAt chars place).2) = (readEscape text).2 := by
  unfold escapeAt
  cases text with
  | nil =>
      rw [(nothing_ahead chars (place + 1) ahead).2]
      exact ⟨rfl, ahead⟩
  | cons next rest =>
      have behind := ahead_rest chars (place + 1) next rest ahead
      rw [ahead_get chars (place + 1) next rest ahead, readEscape]
      cases letter : Text.letterEscape? next with
      | some control =>
          simp only [letter]
          exact ⟨trivial, behind⟩
      | none =>
          by_cases quote : next = '\x22'
          · simp only [letter, if_pos quote]
            exact ⟨trivial, behind⟩
          · simp only [letter, if_neg quote]
            exact ⟨trivial, behind⟩

theorem padAt_ok (spec : Spec) (numeric : Bool) (body : List Char) :
    padAt spec numeric body = .ok (pad spec numeric body) := by
  unfold padAt
  by_cases wide : spec.width ≤ body.length
  · have none : spec.width - body.length = 0 := by omega
    rw [if_pos wide]
    unfold pad
    simp only [none, List.replicate_zero, List.append_nil, List.nil_append]
    split
    · rfl
    · split
      · split <;> rfl
      · rfl
  · rw [if_neg wide, minus_ok _ _ (by omega)]
    rfl

theorem renderAt_ok (spec : Spec) (argument : String) :
    renderAt spec argument = .ok (spec.render argument) := by
  unfold renderAt Spec.render
  simp only [padAt_ok, bind, Except.bind]
  cases spec.conversion with
  | none => rfl
  | some conversion =>
      cases spec.oversized with
      | some digits => rfl
      | none =>
          simp only
          by_cases text : conversion = 's'
          · rw [if_pos text, if_pos text]
          · rw [if_neg text, if_neg text]
            by_cases character : conversion = 'c'
            · rw [if_pos character, if_pos character]
            · rw [if_neg character, if_neg character]
              by_cases numeric : isNumeric conversion
              · rw [if_pos numeric, if_pos numeric]
                cases integerArgument argument <;> rfl
              · rw [if_neg numeric, if_neg numeric]

theorem passAt_ok (chars : List Char) (arguments : List String) (place index : Nat) :
    ∃ reached, passAt chars arguments place index =
        .ok ((pass (pieces (chars.drop place)) (arguments.drop index)).1, reached) ∧
      arguments.drop reached = (pass (pieces (chars.drop place)) (arguments.drop index)).2 ∧
      index ≤ reached := by
  generalize same : chars.drop place = text
  fun_induction pieces text generalizing place index with
  | case1 =>
      rw [passAt, dif_neg (nothing_ahead chars place same).1]
      exact ⟨index, rfl, rfl, Nat.le_refl _⟩
  | case2 rest ih =>
      have inside := ahead_lt chars place _ rest same
      obtain ⟨read, behind⟩ := escapeAt_eq chars place rest (ahead_rest chars place _ rest same)
      obtain ⟨reached, ran, left, grown⟩ := ih _ index behind
      rw [passAt, dif_pos inside, item_ahead chars place _ rest same]
      refine ⟨reached, ?_, left, grown⟩
      simp only [bind, Except.bind, if_true, ran, read]
      rfl
  | case3 rest doubled percent ih =>
      have inside := ahead_lt chars place _ rest same
      have behind := ahead_rest chars place _ rest same
      have second : chars[place + 1]? = some '%' := by rw [← List.head?_drop, behind, doubled]
      obtain ⟨reached, ran, left, grown⟩ := ih (place + 2) index (by
        rw [← behind, List.tail_drop])
      rw [passAt, dif_pos inside, item_ahead chars place _ rest same]
      refine ⟨reached, ?_, left, grown⟩
      simp only [bind, Except.bind, if_neg percent, if_true, if_pos second, ran]
      rfl
  | case4 rest single percent ih =>
      have inside := ahead_lt chars place _ rest same
      have behind := ahead_rest chars place _ rest same
      have second : chars[place + 1]? ≠ some '%' := by rwa [← List.head?_drop, behind]
      obtain ⟨taken, read, further, positive, _⟩ := specAt_ok chars place rest behind inside
      obtain ⟨reached, ran, left, grown⟩ := ih (place + taken)
        (if (readSpec rest).1.consumes then index + 1 else index) further
      have argument : arguments[index]?.getD "" = (arguments.drop index).headD "" := by
        rw [List.headD_eq_head?_getD, List.head?_drop]
      have remaining : arguments.drop (if (readSpec rest).1.consumes then index + 1 else index) =
          if (readSpec rest).1.consumes then (arguments.drop index).tail
          else arguments.drop index := by
        rw [List.tail_drop]
        split <;> rfl
      rw [remaining] at ran left
      rw [passAt, dif_pos inside, item_ahead chars place _ rest same]
      refine ⟨reached, ?_, left, ?_⟩
      · simp only [bind, Except.bind, if_neg percent, if_true, if_neg second, read, argument,
          renderAt_ok, dif_pos positive, ran]
        rfl
      · split at grown <;> omega
  | case5 c rest plain other ih =>
      have inside := ahead_lt chars place c rest same
      obtain ⟨reached, ran, left, grown⟩ :=
        ih (place + 1) index (ahead_rest chars place c rest same)
      rw [passAt, dif_pos inside, item_ahead chars place c rest same]
      refine ⟨reached, ?_, left, grown⟩
      simp only [bind, Except.bind, if_neg plain, if_neg other, ran]
      rfl

-- The format is used again while arguments are left and the last pass has taken one: both are said
-- by the index here, and by the arguments themselves in the command.
theorem passesAt_ok (chars : List Char) (arguments : List String) (index : Nat) :
    passesAt chars arguments index = .ok (passes (pieces chars) (arguments.drop index)) := by
  generalize same : arguments.drop index = rest
  fun_induction passes (pieces chars) rest generalizing index with
  | case1 rest again ih =>
      obtain ⟨reached, ran, left, grown⟩ := passAt_ok chars arguments 0 index
      rw [List.drop_zero, same] at ran left
      have continues : index < reached ∧ reached < arguments.length := by
        rw [← left, ← same, List.length_drop, List.length_drop, Ne, List.drop_eq_nil_iff] at again
        omega
      rw [passesAt, ran]
      simp only [bind, Except.bind, dif_pos continues, ih reached left]
  | case2 rest done =>
      obtain ⟨reached, ran, left, grown⟩ := passAt_ok chars arguments 0 index
      rw [List.drop_zero, same] at ran left
      have ends : ¬ (index < reached ∧ reached < arguments.length) := by
        rw [← left, ← same, List.length_drop, List.length_drop, Ne, List.drop_eq_nil_iff] at done
        omega
      rw [passesAt, ran]
      simp only [bind, Except.bind, dif_neg ends]

theorem checkedHandler_eq : checkedHandler = handler := by
  funext host name arguments context
  cases arguments with
  | nil => rfl
  | cons format rest =>
      simp only [checkedHandler, passesAt_ok, List.drop_zero, handler, bind, Except.bind]

end ShellWalk.Printf
