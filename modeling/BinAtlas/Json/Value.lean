/-! JSON values as they stand in a text: numbers keep their spelling, objects keep the order and
the repetitions of their keys. -/

namespace BinAtlas

/-- A number as it is written. `decimal` is every spelling with a fraction or an exponent. -/
inductive Json.Number where
  | integer (negative : Bool) (magnitude : Nat)
  | decimal (negative : Bool) (whole fraction : List Char) (exponent : Option Int)
  deriving DecidableEq

/-- `spoiled` stands for a string with half of a surrogate pair, or an object with such a key. It
is no text, so nothing can be read out of it, but it does no harm where it is not looked at. -/
inductive Json where
  | null
  | bool (b : Bool)
  | number (n : Json.Number)
  | text (s : String)
  | list (items : List Json)
  | object (fields : List (String × Json))
  | spoiled

namespace Json

def nat (n : Nat) : Json := .number (.integer false n)

def word (n : UInt64) : Json := nat n.toNat

def word32 (n : UInt32) : Json := nat n.toNat

def int (n : Int) : Json := .number (.integer (n < 0) n.natAbs)

def option {α : Type} (encode : α → Json) : Option α → Json
  | none => .null
  | some a => encode a

def listOf {α : Type} (encode : α → Json) (items : List α) : Json := .list (items.map encode)

end Json
end BinAtlas
