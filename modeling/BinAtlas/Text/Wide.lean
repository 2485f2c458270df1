import BinAtlas.Text.Utf8

/-! Texts in units of 16 and of 32 bits. A unit that stands for no character is read as U+FFFD. -/

namespace BinAtlas.Utf16

def isHigh (u : Nat) : Bool := 0xD800 ≤ u && u ≤ 0xDBFF
def isLow (u : Nat) : Bool := 0xDC00 ≤ u && u ≤ 0xDFFF

/-- One unit, or two surrogates. -/
def encodeChar (c : Char) : List Nat :=
  let n := c.toNat
  if n < 0x10000 then [n]
  else [0xD800 + (n - 0x10000) / 0x400, 0xDC00 + (n - 0x10000) % 0x400]

def encode (cs : List Char) : List Nat := cs.flatMap encodeChar

def pair (high low : Nat) : Char :=
  Char.ofNat (0x10000 + (high - 0xD800) * 0x400 + (low - 0xDC00))

/-- A surrogate without its partner is replaced; the unit after it is read on its own. -/
def decode : List Nat → List Char
  | [] => []
  | [u] => [if isHigh u || isLow u then Utf8.replacement else Char.ofNat u]
  | u :: v :: us =>
    if isHigh u && isLow v then pair u v :: decode us
    else if isHigh u || isLow u then Utf8.replacement :: decode (v :: us)
    else Char.ofNat u :: decode (v :: us)

end BinAtlas.Utf16

namespace BinAtlas.Utf32

def encode (cs : List Char) : List Nat := cs.map Char.toNat

def decodeUnit (u : Nat) : Char :=
  if u.isValidChar then Char.ofNat u else Utf8.replacement

def decode (units : List Nat) : List Char := units.map decodeUnit

end BinAtlas.Utf32
