import BinAtlas.Numeral
import BinAtlas.Text.Blank

/-! Bytes written as two hexadecimal digits each. Reading takes digits of either case and skips
white space, also between the two digits of a byte. -/

namespace BinAtlas.Hex

def nibble (n : Nat) : Char := Nat.digitChar n

def encodeChars : List UInt8 → List Char
  | [] => []
  | b :: bs => nibble (b.toNat / 16) :: nibble (b.toNat % 16) :: encodeChars bs

/-- Two lower-case digits for each byte. -/
def encode (bytes : List UInt8) : String := String.ofList (encodeChars bytes)

/-- Reads digits two at a time. -/
def decodeChars? : List Char → Option (List UInt8)
  | [] => some []
  | [_] => none
  | high :: low :: cs => do
    let h ← Numeral.digit? high
    let l ← Numeral.digit? low
    let bytes ← decodeChars? cs
    return (h * 16 + l).toUInt8 :: bytes

def decode? (text : String) : Option (List UInt8) :=
  decodeChars? (text.toList.filter fun c => !Text.isBlank c)

end BinAtlas.Hex
