set_option autoImplicit false

namespace ShellWalk

structure Double where
  significand : Nat
  exponent : Int
deriving DecidableEq, Repr, Inhabited

namespace Double

def precision : Nat := 53

def minExponent : Int := -1074

def maxExponent : Int := 971

def zero : Double := ⟨0, minExponent⟩

def roundHalfEven (num den : Nat) : Nat :=
  let quotient := num / den
  let remainder := num % den
  if 2 * remainder < den then quotient
  else if den < 2 * remainder then quotient + 1
  else quotient + quotient % 2

def scale (num den : Nat) (exponent : Int) : Nat × Nat :=
  if exponent < 0 then (num * Nat.pow 2 exponent.natAbs, den)
  else (num, den * Nat.pow 2 exponent.natAbs)

def exponentFor (num den : Nat) : Int :=
  let low : Int := (num.log2 : Int) - (den.log2 : Int) - precision
  let (n, d) := scale num den low
  max minExponent (if n / d < Nat.pow 2 precision then low else low + 1)

def nearest? (num den : Nat) : Option Double :=
  if num = 0 then some zero
  else
    let exponent := exponentFor num den
    let (n, d) := scale num den exponent
    let significand := roundHalfEven n d
    let rounded : Double :=
      if significand = Nat.pow 2 precision then ⟨Nat.pow 2 (precision - 1), exponent + 1⟩
      else ⟨significand, exponent⟩
    if rounded.exponent ≤ maxExponent then some rounded else none

def numerator (x : Double) : Nat := if x.exponent < 0 then x.significand
  else x.significand * Nat.pow 2 x.exponent.natAbs

def denominator (x : Double) : Nat := if x.exponent < 0 then Nat.pow 2 x.exponent.natAbs else 1

def mul? (x y : Double) : Option Double :=
  nearest? (x.numerator * y.numerator) (x.denominator * y.denominator)

def div? (x y : Double) : Option Double :=
  nearest? (x.numerator * y.denominator) (x.denominator * y.numerator)

def ofNat? (n : Nat) : Option Double := nearest? n 1

def ofDecimal? (digits : Nat) (exponent : Int) : Option Double :=
  if exponent < 0 then nearest? digits (Nat.pow 10 exponent.natAbs)
  else nearest? (digits * Nat.pow 10 exponent.natAbs) 1

def magnitude (x : Double) : Int :=
  if x.denominator ≤ x.numerator then
    (Nat.toDigits 10 (x.numerator / x.denominator)).length
  else
    1 - ((Nat.toDigits 10 (x.denominator / x.numerator)).length : Int)

def decimalOf (x : Double) (size : Nat) : Nat × Int :=
  let exponent := x.magnitude - size
  let digits :=
    if exponent < 0 then roundHalfEven (x.numerator * Nat.pow 10 exponent.natAbs) x.denominator
    else roundHalfEven x.numerator (x.denominator * Nat.pow 10 exponent.natAbs)
  (digits, exponent)

def decimal (x : Double) : Nat × Int :=
  if x.significand = 0 then (0, 0)
  else
    let candidates := (List.range 17).map fun size => x.decimalOf (size + 1)
    (candidates.find? fun candidate => ofDecimal? candidate.1 candidate.2 = some x).getD
      (x.decimalOf 17)

end Double

end ShellWalk
