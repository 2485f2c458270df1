import BinAtlas.Error

/-! The two ways to name a segment: by an address in it, or by its name. -/

namespace BinAtlas

inductive SegmentKey where
  | address (a : Address)
  | name (n : String)
  deriving DecidableEq

namespace SegmentKey

def text : SegmentKey → String
  | .address a => a.text
  | .name n => n

/-- A number that is an address, or a string; any other value is no key. -/
def ofJson (v : Json) : Except Error SegmentKey :=
  match v with
  | .number (.integer false n) =>
    match Numeral.word? n with
    | some a => .ok (.address a)
    | none => .error (.invalidInput (.segmentKey v))
  | .text s => .ok (.name s)
  | v => .error (.invalidInput (.segmentKey v))

/-- A text that reads as an address is one; any other is a name. -/
def ofText (t : String) : SegmentKey :=
  match Address.ofText? t with
  | some a => .address a
  | none => .name t

end SegmentKey
end BinAtlas
