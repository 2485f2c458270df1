import BinAtlas.Snapshot

/-! The loaded bytes: regions in a fixed order. Where regions overlap, the first one that covers an
address holds its byte, for reading and for writing. -/

namespace BinAtlas

namespace Region

def covers (r : Region) (a : Address) : Bool :=
  r.start ≤ a && (a - r.start).toNat < r.bytes.size

def byte? (r : Region) (a : Address) : Option UInt8 :=
  if r.start ≤ a then r.bytes[(a - r.start).toNat]? else none

def set (r : Region) (a : Address) (b : UInt8) : Region :=
  { r with bytes := r.bytes.setIfInBounds (a - r.start).toNat b }

/-- The first address after the region, where there is one. -/
def stop? (r : Region) : Option Address := Address.plus? r.start r.bytes.size

end Region

/-- Shifts bytes into a word, one behind the other. -/
def shiftIn (bytes : List UInt8) : UInt64 := bytes.foldl (fun w b => w <<< 8 ||| b.toUInt64) 0

abbrev Image := List Region

namespace Image

def byte? (m : Image) (a : Address) : Option UInt8 := m.findSome? (·.byte? a)

/-- The byte `i` places after an address. Past the last address there is none. -/
def at? (m : Image) (a : Address) (i : Nat) : Option UInt8 := (a.plus? i).bind m.byte?

/-- Whether `n` bytes from the one `i` places after an address are loaded. -/
def loadedFrom (m : Image) (a : Address) (i : Nat) : Nat → Bool
  | 0 => true
  | n + 1 => (m.at? a i).isSome && loadedFrom m a (i + 1) n

def loaded (m : Image) (a : Address) (n : Nat) : Bool := m.loadedFrom a 0 n

/-- Reads `n` bytes, with `fill` for those that are not loaded. -/
def read (m : Image) (a : Address) (n : Nat) (fill : UInt8) : List UInt8 :=
  (List.range n).map fun i => (m.at? a i).getD fill

/-- Reads `n` bytes into a word, with zeros for those that are not loaded. -/
def readWord (m : Image) (bigEndian : Bool) (a : Address) (n : Nat) : UInt64 :=
  let bytes := m.read a n 0
  shiftIn (if bigEndian then bytes else bytes.reverse)

def set : Image → Address → UInt8 → Image
  | [], _, _ => []
  | r :: rs, a, b => if r.covers a then r.set a b :: rs else r :: set rs a b

/-- Puts bytes from the one `i` places after an address on. -/
def storeFrom (m : Image) (a : Address) (i : Nat) : List UInt8 → Image
  | [] => m
  | b :: bs =>
    match a.plus? i with
    | some p => storeFrom (m.set p b) a (i + 1) bs
    | none => m

/-- Overwrites loaded bytes, all or none. -/
def patch (m : Image) (a : Address) (data : List UInt8) : Bool × Image :=
  if m.loaded a data.length then (true, m.storeFrom a 0 data) else (false, m)

/-- The least start of a region. -/
def minStart? (m : Image) : Option Address := (m.map (·.start)).min?

/-- The greatest end of a region. -/
def maxStop? (m : Image) : Option Address := (m.filterMap (·.stop?)).max?

end Image

/-- The number that bytes write in base 256. -/
def number (bigEndian : Bool) (bytes : List UInt8) : Nat :=
  (if bigEndian then bytes else bytes.reverse).foldl (fun n b => n * 256 + b.toNat) 0

end BinAtlas
