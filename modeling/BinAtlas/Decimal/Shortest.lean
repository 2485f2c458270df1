/-! The shortest decimal that reads back as a binary floating-point number. The numbers that round
to `m * 2 ^ q` make an interval; the answer is a point of the coarsest decimal grid that has a
point in it, the nearest to the number itself, and the even one of two that are equally near. -/

namespace BinAtlas.Decimal

/-- A positive number `m * 2 ^ q`. Below it the next number is half as far away if `isPower`. -/
structure Binary where
  m : Nat
  q : Int
  isPower : Bool

/-- Powers of `b` above and below a fraction line. -/
def above (b : Nat) (e : Int) : Nat := Nat.pow b e.toNat
def below (b : Nat) (e : Int) : Nat := Nat.pow b (-e).toNat

/-- Compares points `d * 10 ^ x` with the number on a common scale: quarters of its last binary
place are `unit` apart and points of the grid `step` apart. -/
structure Scale where
  unit : Nat
  step : Nat

def Binary.scale (v : Binary) (x : Int) : Scale :=
  { unit := above 2 (v.q - 2) * below 10 x
    step := above 10 x * below 2 (v.q - 2) }

/-- Whether the point `d` of the grid rounds to the number. The ends do if `m` is even. -/
def Binary.holds (v : Binary) (s : Scale) (d : Nat) : Bool :=
  let low := (4 * v.m - (if v.isPower then 1 else 2)) * s.unit
  let high := (4 * v.m + 2) * s.unit
  let p := d * s.step
  if v.m % 2 == 0 then low ≤ p && p ≤ high else low < p && p < high

/-- The best point of the grid `10 ^ x`, if one of the two around the number rounds to it. -/
def Binary.onGrid? (v : Binary) (x : Int) : Option Nat :=
  let s := v.scale x
  let exact := 4 * v.m * s.unit
  let d := exact / s.step
  match v.holds s d, v.holds s (d + 1) with
  | true, true =>
    let down := exact - d * s.step
    let up := (d + 1) * s.step - exact
    if down < up || (down == up && d % 2 == 0) then some d else some (d + 1)
  | true, false => some d
  | false, true => some (d + 1)
  | false, false => none

/-- The number of digits before the point less one; negative for a number below one. -/
def Binary.exponent (v : Binary) : Int :=
  let num := v.m * above 2 v.q
  let den := below 2 v.q
  if den ≤ num then ((Nat.toDigits 10 (num / den)).length : Int) - 1
  else
    match (List.range 400).find? fun k => den ≤ num * Nat.pow 10 k with
    | some k => -(k : Int)
    | none => 0

/-- Drops zeros at the end; fuel bounds the number of digits. -/
def stripZeros : Nat → Nat → Int → Nat × Int
  | 0, d, x => (d, x)
  | n + 1, d, x => if d != 0 && d % 10 == 0 then stripZeros n (d / 10) (x + 1) else (d, x)

/-- Digits and the exponent of the last one. -/
def Binary.shortest (v : Binary) : Nat × Int :=
  let e := v.exponent
  let grids := (List.range 17).map fun (n : Nat) => e - n
  match grids.findSome? fun x => (v.onGrid? x).map fun d => (d, x) with
  | some (d, x) => stripZeros 20 d x
  | none => (0, 0)

end BinAtlas.Decimal
