/-! Numerals: the value of a run of digits in a base up to sixteen, and the hexadecimal
writing of a number. -/

namespace BinAtlas.Numeral

/-- The value of a hexadecimal digit of either case. -/
def digit? (c : Char) : Option Nat :=
  if '0' ≤ c ∧ c ≤ '9' then some (c.toNat - '0'.toNat)
  else if 'a' ≤ c ∧ c ≤ 'f' then some (c.toNat - 'a'.toNat + 10)
  else if 'A' ≤ c ∧ c ≤ 'F' then some (c.toNat - 'A'.toNat + 10)
  else none

/-- The value of a digit of the base. -/
def digitIn? (base : Nat) (c : Char) : Option Nat :=
  (digit? c).filter (· < base)

/-- Continues a number by the digits that follow it; nothing if one of them is no digit. -/
def extend? (base : Nat) : Nat → List Char → Option Nat
  | n, [] => some n
  | n, c :: cs => (digitIn? base c).bind fun d => extend? base (n * base + d) cs

/-- The value of one or more digits. -/
def value? (base : Nat) : List Char → Option Nat
  | [] => none
  | cs => extend? base 0 cs

/-- One or more digits after at most one plus sign. -/
def unsigned? (base : Nat) : List Char → Option Nat
  | '+' :: cs => value? base cs
  | cs => value? base cs

/-- A number that fits a word of 64 bits. -/
def word? (n : Nat) : Option UInt64 :=
  if n < UInt64.size then some n.toUInt64 else none

/-- A number that fits a word of 32 bits. -/
def word32? (n : Nat) : Option UInt32 :=
  if n < UInt32.size then some n.toUInt32 else none

/-- A number that fits a byte. -/
def byte? (n : Nat) : Option UInt8 :=
  if n < UInt8.size then some n.toUInt8 else none

def hexDigits (n : Nat) : List Char := Nat.toDigits 16 n

/-- Lower-case hexadecimal without leading zeros. -/
def hex (n : Nat) : String := String.ofList (hexDigits n)

/-- Lower-case hexadecimal of at least eight digits. -/
def hex8 (n : Nat) : String := String.ofList ((hexDigits n).leftpad 8 '0')

/-- Upper-case hexadecimal without leading zeros. -/
def hexUpper (n : Nat) : String := String.ofList ((hexDigits n).map Char.toUpper)

/-- Upper-case hexadecimal of at least eight digits. -/
def hexUpper8 (n : Nat) : String :=
  String.ofList (((hexDigits n).map Char.toUpper).leftpad 8 '0')

end BinAtlas.Numeral
