import BinAtlas.Numeral
import BinAtlas.Text.Blank

/-! Addresses are words of 64 bits. Sums are taken only where they are still addresses, and an
address is written in hexadecimal or read from one of two spellings. -/

namespace BinAtlas

abbrev Address := UInt64

namespace Address

/-- What a host answers where it knows no address. -/
def bad : Address := 0xFFFFFFFFFFFFFFFF

/-- The address `n` bytes further on, where there is one. -/
def plus? (a : Address) (n : Nat) : Option Address :=
  if a.toNat + n < UInt64.size then some (a + n.toUInt64) else none

/-- The sum of two words, or the last word where it does not fit. -/
def saturatingAdd (a b : UInt64) : UInt64 :=
  if a.toNat + b.toNat < UInt64.size then a + b else bad

/-- The difference of two words, or zero where it is negative. -/
def saturatingSub (a b : UInt64) : UInt64 :=
  if b ≤ a then a - b else 0

/-- The word a signed distance away, where there is one. -/
def shift? (a : UInt64) (d : Int) : Option UInt64 :=
  let n := (a.toNat : Int) + d
  if 0 ≤ n ∧ n < UInt64.size then some n.toNat.toUInt64 else none

/-- As in `0x1f`. -/
def text (a : Address) : String := "0x" ++ Numeral.hex a.toNat

/-- As in `0x0000001f`. -/
def text8 (a : Address) : String := "0x" ++ Numeral.hex8 a.toNat

/-- As in `0x0000001F`. -/
def textUpper8 (a : Address) : String := "0x" ++ Numeral.hexUpper8 a.toNat

/-- Reads hexadecimal after `0x` or `0X`, or decimal; white space around it is dropped, and one
plus sign may stand before the digits. -/
def ofText? (t : String) : Option Address :=
  let number := match Text.trim t.toList with
    | '0' :: 'x' :: digits => Numeral.unsigned? 16 digits
    | '0' :: 'X' :: digits => Numeral.unsigned? 16 digits
    | digits => Numeral.unsigned? 10 digits
  number.bind Numeral.word?

end Address
end BinAtlas
