import BinAtlas.Document
import BinAtlas.Json.Value

/-! JSON as a document format. A record is an object, or the list of its fields in order, of which
the last ones may be missing. A number must be written as a whole number without a sign. -/

namespace BinAtlas.Json

def natural? : Json → Option Nat
  | .number (.integer false n) => some n
  | _ => none

def flag? : Json → Option Bool
  | .bool b => some b
  | _ => none

def text? : Json → Option String
  | .text s => some s
  | _ => none

def present? : Json → Option Bool
  | .null => some false
  | _ => some true

def items? : Json → Option (List Json)
  | .list items => some items
  | _ => none

def fields? (names : List String) : Json → Option (Fields Json)
  | .object fields => Fields.select? names fields
  | .list items => if items.length ≤ names.length then some (names.zip items) else none
  | _ => none

instance : Document Json where
  natural? := natural?
  flag? := flag?
  text? := text?
  present? := present?
  items? := items?
  fields? := fields?

end BinAtlas.Json
