import BinAtlas.Json.Double

/-! One text for each value: numbers by their value, keys in order, and of a repeated key only the
last. A value has one only if its texts are texts, its numbers are in range and it is nested less
than 128 deep. -/

namespace BinAtlas.Json

/-- Puts a field at the place of its key, in the place of an earlier one with that key. -/
def insertField (key : String) (v : Json) : List (String × Json) → List (String × Json)
  | [] => [(key, v)]
  | (k, w) :: fs =>
    if key < k then (key, v) :: (k, w) :: fs
    else if key = k then (key, v) :: fs
    else (k, w) :: insertField key v fs

mutual

/-- Sorts the keys of every object; `depth` more levels may be opened. -/
def canonical? (depth : Nat) : Json → Option Json
  | .null => some .null
  | .bool b => some (.bool b)
  | .number n => if n.amount?.isSome then some (.number n) else none
  | .text s => some (.text s)
  | .list items => if depth = 0 then none else (canonicalItems? (depth - 1) items).map .list
  | .object fields =>
    if depth = 0 then none
    else (canonicalFields? (depth - 1) fields).map fun fs =>
      .object (fs.foldl (fun sorted f => insertField f.1 f.2 sorted) [])
  | .spoiled => none

def canonicalItems? (depth : Nat) : List Json → Option (List Json)
  | [] => some []
  | v :: vs => do
    let w ← canonical? depth v
    return w :: (← canonicalItems? depth vs)

def canonicalFields? (depth : Nat) : List (String × Json) → Option (List (String × Json))
  | [] => some []
  | (k, v) :: fs => do
    let w ← canonical? depth v
    return (k, w) :: (← canonicalFields? depth fs)

end

/-- The value as one that is kept: at most 127 levels. -/
def value? (v : Json) : Option Json := canonical? 127 v

/-- The text of a value that is kept. -/
def valueText (v : Json) : String := compactWith Number.valueText v

end BinAtlas.Json
