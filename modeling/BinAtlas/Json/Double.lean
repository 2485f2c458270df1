import BinAtlas.Decimal.Shortest
import BinAtlas.Json.Writer

/-! Numbers as values. A number that is a whole one and fits a word, signed if it has a sign, is
kept exactly; every other one is a floating-point number of 64 bits. It is read as the leading
digits that fit a word, times or divided by a power of ten, and written as the shortest decimal
that reads back. -/

namespace BinAtlas.Json

def power (k : Nat) : Float := Float.ofScientific 1 false k

/-- Multiplies by a power of ten; nothing if the result is too large. -/
def scale? (f : Float) (e : Int) : Option Float :=
  if 308 < e then if f == 0 then some f else none
  else if 0 ≤ e then
    let g := f * power e.toNat
    if g.isInf then none else some g
  else if -308 ≤ e then some (f / power (-e).toNat)
  else if -616 ≤ e then some (f / power 308 / power (-e - 308).toNat)
  else some 0

/-- Takes digits into a word as long as it holds them; answers the digits that are left. -/
def takeDigits (n : Nat) : List Char → Nat × List Char
  | [] => (n, [])
  | c :: cs =>
    let next := n * 10 + (c.toNat - '0'.toNat)
    if next < UInt64.size then takeDigits next cs else (n, c :: cs)

/-- The value of a spelling, without its sign. Digits before the point that do not fit count as
places; those after it are dropped. -/
def magnitude? (whole fraction : List Char) (exponent : Int) : Option Float :=
  let (n, skipped) := takeDigits 0 whole
  let (n, dropped) := takeDigits n fraction
  let places : Int := skipped.length - (fraction.length - dropped.length : Nat)
  let f := n.toUInt64.toFloat
  if exponent.natAbs < 0x80000000 then scale? f (places + exponent)
  else if n != 0 && 0 < exponent then none
  else some 0

inductive Amount where
  | whole (n : Int)
  | double (f : Float)

def signed (negative : Bool) (f : Float) : Float := if negative then -f else f

/-- The highest bit of a word. -/
def signBit : Nat := 0x8000000000000000

/-- The leading bit of a fraction, which is not written. -/
def hiddenBit : Nat := 0x10000000000000

/-- The value of a number; nothing if it is too large. -/
def Number.amount? : Number → Option Amount
  | .integer negative n =>
    if !negative && n < UInt64.size then some (.whole n)
    else if negative && 0 < n && n ≤ signBit then some (.whole (-n))
    else (magnitude? (Nat.toDigits 10 n) [] 0).map fun f => .double (signed negative f)
  | .decimal negative whole fraction exponent =>
    (magnitude? whole fraction (exponent.getD 0)).map fun f => .double (signed negative f)

/-- The parts of a positive finite number. -/
def binaryOf (f : Float) : Decimal.Binary :=
  let bits : Nat := f.toBits.toNat % signBit
  let field : Nat := bits / hiddenBit
  let low : Nat := bits % hiddenBit
  if field = 0 then ⟨low, -1074, false⟩
  else ⟨low + hiddenBit, (field : Int) - 1075, low == 0 && field != 1⟩

/-- Positional for exponents from -5 to 15, with at least one digit after the point; otherwise
one digit before the point and a signed exponent. -/
def decimalText (d : Nat) (x : Int) : String :=
  let digits := Nat.toDigits 10 d
  let count : Int := digits.length
  let e := x + count - 1
  let text := String.ofList
  if 0 ≤ x ∧ e ≤ 15 then text (digits ++ List.replicate x.toNat '0' ++ ['.', '0'])
  else if 0 ≤ e ∧ e ≤ 15 then
    text (digits.take (e + 1).toNat ++ '.' :: digits.drop (e + 1).toNat)
  else if -5 ≤ e ∧ e < 0 then
    text ('0' :: '.' :: List.replicate (-e - 1).toNat '0' ++ digits)
  else
    let tail := digits.drop 1
    text (digits.take 1 ++ (if tail.isEmpty then [] else '.' :: tail))
      ++ "e" ++ (if e < 0 then "-" else "+") ++ toString e.natAbs

def doubleText (f : Float) : String :=
  let sign := if f.toBits.toNat / signBit = 1 then "-" else ""
  if f == 0 then sign ++ "0.0"
  else
    let (d, x) := (binaryOf f).shortest
    sign ++ decimalText d x

def Number.valueText (n : Number) : String :=
  match n.amount? with
  | some (.whole n) => toString n
  | some (.double f) => doubleText f
  | none => n.text

end BinAtlas.Json
