import ShellWalk.Command.Echo
import ShellWalk.Proofs.Checked.Slice

set_option autoImplicit false

namespace ShellWalk.Echo

open Checked

def flagsAt (arguments : List String) (place : Nat) (flags : Flags) :
    Except String (Flags × Nat) :=
  if _ : place < arguments.length then do
    let word ← item arguments place
    match flags.add? word with
    | some more => flagsAt arguments (place + 1) more
    | none => .ok (flags, place)
  else .ok (flags, place)
termination_by arguments.length - place

def escapeAt (chars : List Char) (place : Nat) : Except String (Emit × Nat) :=
  match chars[place + 1]? with
  | none => .ok (.text ['\\'], 0)
  | some next =>
      match Text.letterEscape? next with
      | some control => .ok (.text [control], 1)
      | none =>
          if next = 'e' ∨ next = 'E' then .ok (.text ['\x1b'], 1)
          else if next = 'c' then .ok (.stop, 1)
          else if next = '0' then do
            let rest ← onward chars (place + 2)
            let digits := (rest.take 3).takeWhile Text.isOctal
            .ok (.text [Char.ofNat (runValue 8 digits % 256)], 1 + digits.length)
          else if next = 'x' then do
            let rest ← onward chars (place + 2)
            let digits := (rest.take 2).takeWhile Text.isHex
            if digits = [] then .ok (.text ['\\', 'x'], 1)
            else .ok (.text [Char.ofNat (runValue 16 digits)], 1 + digits.length)
          else .ok (.text ['\\', next], 1)

def decodeAt (chars : List Char) (place : Nat) : Except String (List Char × Bool) :=
  if _ : place < chars.length then do
    let c ← item chars place
    if c = '\\' then
      let (emitted, taken) ← escapeAt chars place
      match emitted with
      | .stop => .ok ([], true)
      | .text piece =>
          let later ← decodeAt chars (place + 1 + taken)
          .ok (piece ++ later.1, later.2)
    else
      let later ← decodeAt chars (place + 1)
      .ok (c :: later.1, later.2)
  else .ok ([], false)
termination_by chars.length - place

def printedAt (arguments : List String) : Except String Printed := do
  let (flags, start) ← flagsAt arguments 0 .initial
  let words ← onward arguments start
  let text := (String.intercalate " " words).toList
  if flags.escapes then
    let (text, stopped) ← decodeAt text 0
    .ok ⟨text, flags.newline && !stopped⟩
  else
    .ok ⟨text, flags.newline⟩

def checkedHandler : Handler := fun _ _ arguments context => do
  let result ← printedAt arguments
  .ok ((Completion.success (inLog result)).apply (context.write (onTerminal result)))

theorem flagsAt_ok (arguments : List String) (place : Nat) (flags : Flags) :
    ∃ start, flagsAt arguments place flags =
        .ok ((readFlags flags (arguments.drop place)).1, start) ∧
      arguments.drop start = (readFlags flags (arguments.drop place)).2 ∧
      (place ≤ arguments.length → start ≤ arguments.length) := by
  generalize same : arguments.drop place = words
  fun_induction readFlags flags words generalizing place with
  | case1 flags =>
      obtain ⟨past, _⟩ := nothing_ahead arguments place same
      refine ⟨place, ?_, same, fun inside => inside⟩
      rw [flagsAt, dif_neg past]
  | case2 flags word rest more added ih =>
      have inside := ahead_lt arguments place word rest same
      obtain ⟨start, read, ahead, bounded⟩ :=
        ih (place + 1) (ahead_rest arguments place word rest same)
      refine ⟨start, ?_, ahead, fun _ => bounded inside⟩
      rw [flagsAt, dif_pos inside, item_ahead arguments place word rest same]
      simpa only [bind, Except.bind, added] using read
  | case3 flags word rest other =>
      have inside := ahead_lt arguments place word rest same
      refine ⟨place, ?_, same, fun _ => Nat.le_of_lt inside⟩
      rw [flagsAt, dif_pos inside, item_ahead arguments place word rest same]
      simp only [bind, Except.bind, other]

-- Where digits are asked for there is a letter behind the backslash, so the slice starts at the
-- end of the text at the latest.
theorem escapeAt_ok (chars : List Char) (place : Nat) :
    ∃ taken, escapeAt chars place = .ok ((escape (chars.drop (place + 1))).1, taken) ∧
      ((escape (chars.drop (place + 1))).1 = .stop ∨
        chars.drop (place + 1 + taken) = (escape (chars.drop (place + 1))).2) := by
  unfold escapeAt
  cases same : chars.drop (place + 1) with
  | nil =>
      obtain ⟨_, absent⟩ := nothing_ahead chars (place + 1) same
      rw [absent]
      exact ⟨0, rfl, .inr same⟩
  | cons next rest =>
      have inside := ahead_lt chars (place + 1) next rest same
      have ahead : chars.drop (place + 2) = rest := ahead_rest chars (place + 1) next rest same
      have further : ∀ count, chars.drop (place + 1 + (1 + count)) = rest.drop count := by
        intro count
        rw [← ahead, List.drop_drop]
        congr 1
        omega
      rw [ahead_get chars (place + 1) next rest same, onward_ok chars (place + 2) (by omega), ahead]
      simp only [escape]
      cases Text.letterEscape? next with
      | some control => exact ⟨1, rfl, .inr ahead⟩
      | none =>
          by_cases escapes : next = 'e' ∨ next = 'E'
          · simp only [if_pos escapes]
            exact ⟨1, rfl, .inr ahead⟩
          · simp only [if_neg escapes]
            by_cases stop : next = 'c'
            · simp only [if_pos stop]
              exact ⟨1, rfl, .inl trivial⟩
            · simp only [if_neg stop]
              by_cases octal : next = '0'
              · simp only [if_pos octal]
                exact ⟨_, rfl, .inr (further _)⟩
              · simp only [if_neg octal]
                by_cases hex : next = 'x'
                · simp only [if_pos hex, hexEscape, bind, Except.bind]
                  by_cases none : (rest.take 2).takeWhile Text.isHex = []
                  · simp only [if_pos none]
                    exact ⟨1, rfl, .inr ahead⟩
                  · simp only [if_neg none]
                    exact ⟨_, rfl, .inr (further _)⟩
                · simp only [if_neg hex]
                  exact ⟨1, rfl, .inr ahead⟩

theorem decodeAt_ok (chars : List Char) (place : Nat) :
    decodeAt chars place = .ok (decode (chars.drop place)) := by
  generalize same : chars.drop place = text
  fun_induction decode text generalizing place with
  | case1 =>
      obtain ⟨past, _⟩ := nothing_ahead chars place same
      rw [decodeAt, dif_neg past]
  | case2 rest stopped =>
      obtain ⟨taken, read, _⟩ := escapeAt_ok chars place
      rw [ahead_rest chars place _ rest same] at read
      rw [decodeAt, dif_pos (ahead_lt chars place _ rest same), item_ahead chars place _ rest same]
      simp only [bind, Except.bind, if_true, read, stopped]
  | case3 rest piece emitted tail ih =>
      obtain ⟨taken, read, ahead⟩ := escapeAt_ok chars place
      rw [ahead_rest chars place _ rest same, emitted] at read
      rw [ahead_rest chars place _ rest same, emitted] at ahead
      have later := ih (place + 1 + taken) (ahead.resolve_left (by simp))
      rw [decodeAt, dif_pos (ahead_lt chars place _ rest same), item_ahead chars place _ rest same]
      simp only [bind, Except.bind, if_true, read, later]
      rfl
  | case4 c rest plain tail ih =>
      have later := ih (place + 1) (ahead_rest chars place c rest same)
      rw [decodeAt, dif_pos (ahead_lt chars place c rest same), item_ahead chars place c rest same]
      simp only [bind, Except.bind, if_neg plain, later]
      rfl

theorem printedAt_ok (arguments : List String) : printedAt arguments = .ok (printed arguments) := by
  obtain ⟨start, read, ahead, bounded⟩ := flagsAt_ok arguments 0 .initial
  rw [List.drop_zero] at read ahead
  unfold printedAt printed
  simp only [read, onward_ok arguments start (bounded (Nat.zero_le _)), ahead, decodeAt_ok,
    List.drop_zero, bind, Except.bind]
  split <;> rfl

theorem checkedHandler_eq : checkedHandler = handler := by
  funext host name arguments context
  simp only [checkedHandler, printedAt_ok, handler, bind, Except.bind]

end ShellWalk.Echo
