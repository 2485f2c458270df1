/-! UTF-8: a text as bytes, and bytes as a text. Reading is either strict, or puts U+FFFD for
every longest run of bytes that begins a character and does not finish it. -/

namespace BinAtlas.Utf8

def replacement : Char := '\uFFFD'

def encode (cs : List Char) : List UInt8 := cs.flatMap String.utf8EncodeChar

/-- The text whose encoding the bytes are. -/
def decode? (bytes : List UInt8) : Option String := String.fromUTF8? bytes.toByteArray

/-- Where a reader stands: between characters, or inside one, with the bits read so far, the
number of bytes owed, and the range of the next byte. -/
inductive Place where
  | between
  | inside (bits owed low high : Nat)

/-- A byte read between characters. -/
def lead (b : Nat) : List Char × Place :=
  if b < 0x80 then ([Char.ofNat b], .between)
  else if 0xC2 ≤ b ∧ b ≤ 0xDF then ([], .inside (b - 0xC0) 1 0x80 0xBF)
  else if b = 0xE0 then ([], .inside 0 2 0xA0 0xBF)
  else if b = 0xED then ([], .inside 0xD 2 0x80 0x9F)
  else if 0xE1 ≤ b ∧ b ≤ 0xEF then ([], .inside (b - 0xE0) 2 0x80 0xBF)
  else if b = 0xF0 then ([], .inside 0 3 0x90 0xBF)
  else if 0xF1 ≤ b ∧ b ≤ 0xF3 then ([], .inside (b - 0xF0) 3 0x80 0xBF)
  else if b = 0xF4 then ([], .inside 4 3 0x80 0x8F)
  else ([replacement], .between)

/-- The characters that a byte completes, and the place after it. -/
def step : Place → Nat → List Char × Place
  | .between, b => lead b
  | .inside bits owed low high, b =>
    if low ≤ b ∧ b ≤ high then
      let bits := bits * 64 + (b - 0x80)
      if owed ≤ 1 then ([Char.ofNat bits], .between)
      else ([], .inside bits (owed - 1) 0x80 0xBF)
    else
      let (cs, place) := lead b
      (replacement :: cs, place)

def decodeFrom : Place → List UInt8 → List Char
  | .between, [] => []
  | .inside .., [] => [replacement]
  | place, b :: bs =>
    let (cs, next) := step place b.toNat
    cs ++ decodeFrom next bs

/-- Reads any bytes. -/
def decodeLossy (bytes : List UInt8) : String := String.ofList (decodeFrom .between bytes)

end BinAtlas.Utf8
