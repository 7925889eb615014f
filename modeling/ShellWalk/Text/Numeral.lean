set_option autoImplicit false

namespace ShellWalk.Text

def isDigit (c : Char) : Bool := '0' ≤ c && c ≤ '9'

def isOctal (c : Char) : Bool := '0' ≤ c && c ≤ '7'

def digitValue? (c : Char) : Option Nat :=
  if '0' ≤ c ∧ c ≤ '9' then some (c.toNat - '0'.toNat)
  else if 'a' ≤ c ∧ c ≤ 'z' then some (c.toNat - 'a'.toNat + 10)
  else if 'A' ≤ c ∧ c ≤ 'Z' then some (c.toNat - 'A'.toNat + 10)
  else none

def digit? (base : Nat) (c : Char) : Option Nat := (digitValue? c).filter (· < base)

def isHex (c : Char) : Bool := (digit? 16 c).isSome

def digitsFrom? (base : Nat) : Nat → List Char → Option Nat
  | value, [] => some value
  | value, c :: rest =>
      match digit? base c with
      | some digit => digitsFrom? base (value * base + digit) rest
      | none => none

def natural? (base : Nat) : List Char → Option Nat
  | [] => none
  | digits => digitsFrom? base 0 digits

def integer? (base : Nat) : List Char → Option Int
  | '-' :: digits => (natural? base digits).map fun n => -(n : Int)
  | '+' :: digits => (natural? base digits).map Int.ofNat
  | digits => (natural? base digits).map Int.ofNat

def wordSize : Nat := Nat.pow 2 64

def halfWord : Nat := Nat.pow 2 63

def inWord (n : Int) : Bool := -(halfWord : Int) ≤ n && n < halfWord

def word? (base : Nat) (text : List Char) : Option Int := (integer? base text).filter inWord

def index? (text : List Char) : Option Nat :=
  let digits := match text with
    | '+' :: digits => digits
    | digits => digits
  (natural? 10 digits).filter (· < wordSize)

def decimal (n : Nat) : List Char := Nat.toDigits 10 n

def signed (n : Int) : List Char :=
  if n < 0 then '-' :: decimal n.natAbs else decimal n.natAbs

def bits (n : Int) : Nat := (n % (wordSize : Int)).toNat

end ShellWalk.Text
