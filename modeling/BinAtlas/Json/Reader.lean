import BinAtlas.Json.Token

/-! Reading a JSON value. A machine takes the tokens one after another and keeps the lists and
objects that are still open, innermost first, so that a value may be nested to any depth. -/

namespace BinAtlas.Json

/-- An open list or object, its elements last first. A key that is no text breaks its object. -/
inductive Frame where
  | list (items : List Json)
  | object (fields : List (String × Json)) (broken : Bool)
  | field (key : Option String) (fields : List (String × Json)) (broken : Bool)

/-- What may come next. -/
inductive Turn where
  | value
  | firstItem
  | firstKey
  | key
  | colon
  | separator
  | nothing

structure Reading where
  turn : Turn
  frames : List Frame
  result : Json

namespace Reading

def start : Reading := ⟨.value, [], .null⟩

/-- Puts a finished value where it belongs. -/
def put (frames : List Frame) (v : Json) : Reading :=
  match frames with
  | [] => ⟨.nothing, [], v⟩
  | .list items :: rest => ⟨.separator, .list (v :: items) :: rest, .null⟩
  | .field (some key) fields broken :: rest =>
    ⟨.separator, .object ((key, v) :: fields) broken :: rest, .null⟩
  | .field none fields _ :: rest => ⟨.separator, .object fields true :: rest, .null⟩
  | .object fields _ :: rest => ⟨.separator, .object fields true :: rest, .null⟩

/-- A token where a value must come. -/
def value? (frames : List Frame) : Token → Option Reading
  | .openList => some ⟨.firstItem, .list [] :: frames, .null⟩
  | .openObject => some ⟨.firstKey, .object [] false :: frames, .null⟩
  | .str (some s) => some (put frames (.text s))
  | .str none => some (put frames .spoiled)
  | .scalar v => some (put frames v)
  | _ => none

def close? : List Frame → Token → Option Reading
  | .list items :: rest, .closeList => some (put rest (.list items.reverse))
  | .object fields broken :: rest, .closeObject =>
    some (put rest (if broken then .spoiled else .object fields.reverse))
  | _, _ => none

def key? : List Frame → Token → Option Reading
  | .object fields broken :: rest, .str key =>
    some ⟨.colon, .field key fields broken :: rest, .null⟩
  | _, _ => none

def separator? : List Frame → Token → Option Reading
  | .list items :: rest, .comma => some ⟨.value, .list items :: rest, .null⟩
  | .object fields broken :: rest, .comma => some ⟨.key, .object fields broken :: rest, .null⟩
  | frames, token => close? frames token

def step? (r : Reading) (token : Token) : Option Reading :=
  match r.turn, token with
  | .value, token => value? r.frames token
  | .firstItem, .closeList => close? r.frames .closeList
  | .firstItem, token => value? r.frames token
  | .firstKey, .closeObject => close? r.frames .closeObject
  | .firstKey, token => key? r.frames token
  | .key, token => key? r.frames token
  | .colon, .colon => some ⟨.value, r.frames, .null⟩
  | .colon, _ => none
  | .separator, token => separator? r.frames token
  | .nothing, _ => none

end Reading

/-- Reads one value that takes up the whole text. -/
def ofText? (text : String) : Option Json := do
  let tokens ← Token.ofText? text
  let final ← tokens.foldlM Reading.step? Reading.start
  match final.turn with
  | .nothing => some final.result
  | _ => none

end BinAtlas.Json
