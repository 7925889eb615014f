import Mathlib.Data.Nat.Digits.Defs
import ShellWalk.Text.Blank
import ShellWalk.Text.Numeral

set_option autoImplicit false

namespace ShellWalk.Text

def decimalValue (digits : List Char) : Nat :=
  Nat.ofDigits 10 (digits.reverse.map fun c => c.toNat - '0'.toNat)

def Decimal (digits : List Char) : Prop := digits ≠ [] ∧ ∀ c ∈ digits, '0' ≤ c ∧ c ≤ '9'

inductive Numeral : List Char → Int → Prop where
  | unsigned (digits : List Char) (decimal : Decimal digits) : Numeral digits (decimalValue digits)
  | positive (digits : List Char) (decimal : Decimal digits) :
      Numeral ('+' :: digits) (decimalValue digits)
  | negative (digits : List Char) (decimal : Decimal digits) :
      Numeral ('-' :: digits) (-decimalValue digits)

theorem decimalValue_cons (c : Char) (rest : List Char) :
    decimalValue (c :: rest) = (c.toNat - '0'.toNat) * 10 ^ rest.length + decimalValue rest := by
  simp only [decimalValue, List.reverse_cons, List.map_append, List.map_cons, List.map_nil,
    Nat.ofDigits_append, Nat.ofDigits_singleton, List.length_map, List.length_reverse]
  ring

theorem char_le_iff (a b : Char) : a ≤ b ↔ a.toNat ≤ b.toNat := by
  rw [Char.le_def, UInt32.le_iff_toNat_le]
  rfl

theorem digit?_decimal (c : Char) (decimal : '0' ≤ c ∧ c ≤ '9') :
    digit? 10 c = some (c.toNat - '0'.toNat) := by
  have small : c.toNat - '0'.toNat < 10 := by
    have upper : c.toNat ≤ 57 := (char_le_iff c '9').mp decimal.2
    have zero : '0'.toNat = 48 := rfl
    omega
  rw [digit?, digitValue?, if_pos decimal, Option.filter_some, if_pos (decide_eq_true small)]

theorem digit?_other (c : Char) (other : ¬ ('0' ≤ c ∧ c ≤ '9')) : digit? 10 c = none := by
  rw [digit?, digitValue?, if_neg other]
  split
  · simp
  · split
    · simp
    · rfl

theorem digitsFrom?_decimal (start : Nat) (digits : List Char)
    (decimal : ∀ c ∈ digits, '0' ≤ c ∧ c ≤ '9') :
    digitsFrom? 10 start digits = some (start * 10 ^ digits.length + decimalValue digits) := by
  induction digits generalizing start with
  | nil => simp [digitsFrom?, decimalValue]
  | cons c rest ih =>
      have here := decimal c (List.mem_cons_self ..)
      have later := ih (start * 10 + (c.toNat - '0'.toNat)) fun other member =>
        decimal other (List.mem_cons_of_mem _ member)
      simp only [digitsFrom?, digit?_decimal c here]
      rw [later, decimalValue_cons, List.length_cons, pow_succ]
      congr 1
      ring

theorem digitsFrom?_some (start n : Nat) (digits : List Char)
    (read : digitsFrom? 10 start digits = some n) : ∀ c ∈ digits, '0' ≤ c ∧ c ≤ '9' := by
  induction digits generalizing start with
  | nil => simp
  | cons c rest ih =>
      by_cases decimal : '0' ≤ c ∧ c ≤ '9'
      · simp only [digitsFrom?, digit?_decimal c decimal] at read
        exact List.forall_mem_cons.mpr ⟨decimal, ih _ read⟩
      · simp [digitsFrom?, digit?_other c decimal] at read

theorem natural?_eq_some_iff (digits : List Char) (n : Nat) :
    natural? 10 digits = some n ↔ Decimal digits ∧ n = decimalValue digits := by
  cases digits with
  | nil => simp [natural?, Decimal]
  | cons c rest =>
      simp only [natural?]
      constructor
      · intro read
        have decimal := digitsFrom?_some 0 n _ read
        rw [digitsFrom?_decimal 0 _ decimal] at read
        refine ⟨⟨List.cons_ne_nil _ _, decimal⟩, ?_⟩
        simpa using read.symm
      · rintro ⟨⟨_, decimal⟩, rfl⟩
        rw [digitsFrom?_decimal 0 _ decimal]
        simp

section Signs

variable (base : Nat) (digits : List Char)

theorem integer?_minus :
    integer? base ('-' :: digits) = (natural? base digits).map fun n : Nat => -(n : Int) := by
  rw [integer?]
  cases natural? base digits <;> rfl

theorem integer?_plus : integer? base ('+' :: digits) = (natural? base digits).map Int.ofNat := rfl

theorem integer?_unsigned (noMinus : digits.head? ≠ some '-') (noPlus : digits.head? ≠ some '+') :
    integer? base digits = (natural? base digits).map Int.ofNat := by
  unfold integer?
  split
  · exact absurd rfl noMinus
  · exact absurd rfl noPlus
  · rfl

end Signs

theorem numeral_of_integer? (text : List Char) (n : Int) (read : integer? 10 text = some n) :
    Numeral text n := by
  by_cases minus : text.head? = some '-'
  · obtain ⟨digits, rfl⟩ := List.head?_eq_some_iff.mp minus
    rw [integer?_minus] at read
    obtain ⟨value, found, rfl⟩ := Option.map_eq_some_iff.mp read
    obtain ⟨decimal, rfl⟩ := (natural?_eq_some_iff digits value).mp found
    exact .negative digits decimal
  · by_cases plus : text.head? = some '+'
    · obtain ⟨digits, rfl⟩ := List.head?_eq_some_iff.mp plus
      rw [integer?_plus] at read
      obtain ⟨value, found, rfl⟩ := Option.map_eq_some_iff.mp read
      obtain ⟨decimal, rfl⟩ := (natural?_eq_some_iff digits value).mp found
      exact .positive digits decimal
    · rw [integer?_unsigned 10 text minus plus] at read
      obtain ⟨value, found, rfl⟩ := Option.map_eq_some_iff.mp read
      obtain ⟨decimal, rfl⟩ := (natural?_eq_some_iff text value).mp found
      exact .unsigned text decimal

theorem integer?_of_numeral {text : List Char} {n : Int} (numeral : Numeral text n) :
    integer? 10 text = some n := by
  have read : ∀ digits, Decimal digits → natural? 10 digits = some (decimalValue digits) :=
    fun digits decimal => (natural?_eq_some_iff digits _).mpr ⟨decimal, rfl⟩
  cases numeral with
  | unsigned _ decimal =>
      have sign : ∀ c ∈ text.head?, c ≠ '-' ∧ c ≠ '+' := by
        intro c first
        have lower := (decimal.2 c (List.mem_of_mem_head? first)).1
        constructor
        · rintro rfl
          exact absurd lower (by decide)
        · rintro rfl
          exact absurd lower (by decide)
      rw [integer?_unsigned 10 text (fun minus => (sign _ minus).1 rfl)
        (fun plus => (sign _ plus).2 rfl), read text decimal]
      rfl
  | positive digits decimal =>
      rw [integer?_plus, read digits decimal]
      rfl
  | negative digits decimal =>
      rw [integer?_minus, read digits decimal]
      rfl

theorem word?_eq_some_iff (text : List Char) (n : Int) :
    word? 10 text = some n ↔ Numeral text n ∧ -2 ^ 63 ≤ n ∧ n < 2 ^ 63 := by
  have range : inWord n = true ↔ -2 ^ 63 ≤ n ∧ n < 2 ^ 63 := by
    rw [inWord, Bool.and_eq_true, decide_eq_true_eq, decide_eq_true_eq]
    rfl
  rw [word?, Option.filter_eq_some_iff, range]
  exact and_congr_left fun _ => ⟨numeral_of_integer? text n, integer?_of_numeral⟩

theorem isBlank_digit (c : Char) (decimal : '0' ≤ c ∧ c ≤ '9') : isBlank c = false := by
  have lower : 48 ≤ c.toNat := (char_le_iff '0' c).mp decimal.1
  have upper : c.toNat ≤ 57 := (char_le_iff c '9').mp decimal.2
  simp only [isBlank, blankRanges, List.any_cons, List.any_nil, Bool.or_eq_false_iff,
    Bool.and_eq_false_iff, decide_eq_false_iff_not, and_true]
  omega

theorem Numeral.solid {text : List Char} {n : Int} (numeral : Numeral text n) :
    ∀ c ∈ text, isBlank c = false := by
  have solid : ∀ digits, Decimal digits → ∀ c ∈ digits, isBlank c = false :=
    fun digits decimal c member => isBlank_digit c (decimal.2 c member)
  cases numeral with
  | unsigned _ decimal => exact solid text decimal
  | positive digits decimal => exact List.forall_mem_cons.mpr ⟨rfl, solid digits decimal⟩
  | negative digits decimal => exact List.forall_mem_cons.mpr ⟨rfl, solid digits decimal⟩

section Runs

variable (accepts : Char → Bool) (front rest : List Char)
  (accepted : ∀ c ∈ front, accepts c = true) (ended : ∀ c ∈ rest.head?, accepts c = false)

include accepted ended

theorem dropWhile_run : (front ++ rest).dropWhile accepts = rest := by
  rw [List.dropWhile_append_of_pos accepted]
  cases rest with
  | nil => rfl
  | cons c later => exact List.dropWhile_cons_of_neg (by simp [ended c rfl])

theorem takeWhile_run : (front ++ rest).takeWhile accepts = front := by
  rw [List.takeWhile_append_of_pos accepted]
  cases rest with
  | nil => simp
  | cons c later => rw [List.takeWhile_cons_of_neg (by simp [ended c rfl]), List.append_nil]

end Runs

theorem dropWhile_ends (accepts : Char → Bool) (front text back : List Char)
    (before : ∀ c ∈ front, accepts c = true) (after : ∀ c ∈ back, accepts c = true)
    (solid : ∀ c ∈ text, accepts c = false) :
    (((front ++ text ++ back).dropWhile accepts).reverse.dropWhile accepts).reverse = text := by
  cases text with
  | nil =>
      have cut : ∀ c ∈ front ++ back, accepts c = true := fun c member =>
        (List.mem_append.mp member).elim (before c) (after c)
      have nothing := dropWhile_run accepts (front ++ back) [] cut (by simp)
      rw [List.append_nil] at nothing
      rw [List.append_nil, nothing]
      rfl
  | cons first rest =>
      have opening : ∀ c ∈ (first :: rest ++ back).head?, accepts c = false := fun c member =>
        solid c (List.mem_of_mem_head? (l := first :: rest) member)
      have ending : ∀ c ∈ (first :: rest).reverse.head?, accepts c = false := fun c member =>
        solid c (List.mem_reverse.mp (List.mem_of_mem_head? member))
      have behind : ∀ c ∈ back.reverse, accepts c = true := fun c member =>
        after c (List.mem_reverse.mp member)
      rw [List.append_assoc, dropWhile_run accepts front _ before opening, List.reverse_append,
        dropWhile_run accepts back.reverse _ behind ending, List.reverse_reverse]

theorem trim_append (front text back : List Char) (before : ∀ c ∈ front, isBlank c = true)
    (after : ∀ c ∈ back, isBlank c = true) (solid : ∀ c ∈ text, isBlank c = false) :
    trim (front ++ text ++ back) = text :=
  dropWhile_ends isBlank front text back before after solid

theorem trim_outer (text : List Char) : ∃ front back, text = front ++ trim text ++ back ∧
    (∀ c ∈ front, isBlank c = true) ∧ ∀ c ∈ back, isBlank c = true := by
  have start := List.takeWhile_append_dropWhile (p := isBlank) (l := text)
  have ending := congrArg List.reverse (List.takeWhile_append_dropWhile (p := isBlank)
    (l := (trimStart text).reverse))
  rw [List.reverse_append, List.reverse_reverse] at ending
  refine ⟨text.takeWhile isBlank, ((trimStart text).reverse.takeWhile isBlank).reverse, ?_, ?_, ?_⟩
  · rw [List.append_assoc]
    exact start.symm.trans (congrArg (text.takeWhile isBlank ++ ·) ending.symm)
  · exact fun c member => List.all_eq_true.mp List.all_takeWhile c member
  · exact fun c member => List.all_eq_true.mp List.all_takeWhile c (List.mem_reverse.mp member)

def DigitOf (base value : Nat) (c : Char) : Prop :=
  value < base ∧ (c = value.digitChar ∨ c = value.digitChar.toUpper)

theorem digit?_digitOf {base value : Nat} {c : Char} (known : base ≤ 16)
    (digit : DigitOf base value c) : digit? base c = some value := by
  have table : ∀ value < 16, digitValue? value.digitChar = some value ∧
      digitValue? value.digitChar.toUpper = some value := by decide
  obtain ⟨small, lower | upper⟩ := digit
  · rw [digit?, lower, (table value (by omega)).1, Option.filter_some,
      if_pos (decide_eq_true small)]
  · rw [digit?, upper, (table value (by omega)).2, Option.filter_some,
      if_pos (decide_eq_true small)]

section Bases

variable (base : Nat)

theorem digitsFrom?_append (start : Nat) (front back : List Char) :
    digitsFrom? base start (front ++ back) =
      (digitsFrom? base start front).bind fun value => digitsFrom? base value back := by
  induction front generalizing start with
  | nil => rfl
  | cons c rest ih =>
      cases found : digit? base c with
      | none => simp [digitsFrom?, found]
      | some digit => simp [digitsFrom?, found, ih]

theorem digitsFrom?_zeros (count : Nat) (digits : List Char) (positive : 0 < base) :
    digitsFrom? base 0 (List.replicate count '0' ++ digits) = digitsFrom? base 0 digits := by
  induction count with
  | zero => rfl
  | succ count ih =>
      have zero : digit? base '0' = some 0 := by
        change Option.filter _ (some 0) = _
        rw [Option.filter_some, if_pos (decide_eq_true positive)]
      rw [List.replicate_succ, List.cons_append, digitsFrom?, zero]
      simpa using ih

theorem digitsFrom?_toDigits (n : Nat) (written : Char → Char) (several : 1 < base)
    (each : ∀ value < base, digit? base (written value.digitChar) = some value) :
    digitsFrom? base 0 ((Nat.toDigits base n).map written) = some n := by
  induction n using Nat.strongRecOn with
  | _ n ih =>
      by_cases small : n < base
      · simp [Nat.toDigits_of_lt_base small, digitsFrom?, each n small]
      · have front := ih (n / base) (Nat.div_lt_self (by omega) several)
        have last := each (n % base) (Nat.mod_lt n (by omega))
        rw [Nat.toDigits_of_base_le several (by omega), List.map_append, digitsFrom?_append, front]
        simp only [Option.bind_some, List.map_cons, List.map_nil, digitsFrom?, last]
        rw [Nat.mul_comm, Nat.div_add_mod]

theorem natural?_toDigits (n : Nat) (written : Char → Char) (several : 1 < base)
    (each : ∀ value < base, digit? base (written value.digitChar) = some value) :
    natural? base ((Nat.toDigits base n).map written) = some n := by
  have read := digitsFrom?_toDigits base n written several each
  cases same : (Nat.toDigits base n).map written with
  | nil => exact absurd (List.map_eq_nil_iff.mp same) Nat.toDigits_ne_nil
  | cons c rest => rwa [same] at read

theorem natural?_lower (n : Nat) (several : 1 < base) (known : base ≤ 16) :
    natural? base (Nat.toDigits base n) = some n := by
  have read := natural?_toDigits base n id several fun _ small =>
    digit?_digitOf known ⟨small, .inl rfl⟩
  rwa [List.map_id] at read

theorem natural?_upper (n : Nat) (several : 1 < base) (known : base ≤ 16) :
    natural? base ((Nat.toDigits base n).map Char.toUpper) = some n :=
  natural?_toDigits base n Char.toUpper several fun _ small =>
    digit?_digitOf known ⟨small, .inr rfl⟩

variable {base} {digits : List Char} {n : Nat}

theorem natural?_zeros (count : Nat) (positive : 0 < base) (read : natural? base digits = some n) :
    natural? base (List.replicate count '0' ++ digits) = some n := by
  cases digits with
  | nil => simp [natural?] at read
  | cons c rest =>
      have same := digitsFrom?_zeros base count (c :: rest) positive
      cases filled : List.replicate count '0' ++ c :: rest with
      | nil => simp at filled
      | cons first later =>
          rw [filled] at same
          exact same.trans read

theorem digitsFrom?_digits {start : Nat} (read : digitsFrom? base start digits = some n) :
    ∀ c ∈ digits, digit? base c ≠ none := by
  induction digits generalizing start with
  | nil => simp
  | cons c rest ih =>
      cases found : digit? base c with
      | none => simp [digitsFrom?, found] at read
      | some digit =>
          simp only [digitsFrom?, found] at read
          exact List.forall_mem_cons.mpr ⟨by simp [found], ih read⟩

theorem natural?_digits (read : natural? base digits = some n) (c : Char)
    (strange : digitValue? c = none) : c ∉ digits := by
  intro member
  cases digits with
  | nil => cases member
  | cons first rest => exact digitsFrom?_digits read c member (by rw [digit?, strange]; rfl)

theorem word?_natural (read : natural? base digits = some n) (small : n < 2 ^ 63) :
    word? base digits = some (n : Int) := by
  have unsigned : integer? base digits = some (n : Int) := by
    rw [integer?_unsigned]
    · rw [read]
      rfl
    · exact fun minus => natural?_digits read '-' rfl (List.mem_of_mem_head? minus)
    · exact fun plus => natural?_digits read '+' rfl (List.mem_of_mem_head? plus)
  have inside : inWord (n : Int) = true := by
    have bound : halfWord = 2 ^ 63 := rfl
    simp only [inWord, bound, Bool.and_eq_true, decide_eq_true_eq]
    omega
  rw [word?, unsigned, Option.filter_some, if_pos inside]

end Bases

end ShellWalk.Text
