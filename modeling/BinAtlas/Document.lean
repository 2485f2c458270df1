import BinAtlas.Numeral

/-! Documents: what a record needs from the format it is written in. A format says how numbers,
flags, texts and lists are recognised and how the fields of a record are found; a record says
which fields it has and what stands for a field that is left out. -/

namespace BinAtlas

/-- The fields of a record that are present, by name. -/
abbrev Fields (δ : Type) := List (String × δ)

class Document (δ : Type) where
  /-- An unsigned whole number. -/
  natural? : δ → Option Nat
  flag? : δ → Option Bool
  text? : δ → Option String
  /-- Whether there is a value, where a field may have none. -/
  present? : δ → Option Bool
  items? : δ → Option (List δ)
  /-- The fields with the given names. Other fields are passed over; a repeated one is refused. -/
  fields? : List String → δ → Option (Fields δ)

namespace Document

variable {δ α : Type} [Document δ]

def word? (d : δ) : Option UInt64 := (natural? d).bind Numeral.word?

def word32? (d : δ) : Option UInt32 := (natural? d).bind Numeral.word32?

def byte? (d : δ) : Option UInt8 := (natural? d).bind Numeral.byte?

def list? (item? : δ → Option α) (d : δ) : Option (List α) := do
  (← items? d).mapM item?

/-- A value, or none. -/
def option? (value? : δ → Option α) (d : δ) : Option (Option α) := do
  if ← present? d then (value? d).map some else some none

end Document

namespace Fields

variable {δ α : Type}

/-- A field that must be present. -/
def required (f : Fields δ) (name : String) (value? : δ → Option α) : Option α :=
  (f.lookup name).bind value?

/-- A field with a value that stands for it when it is left out. -/
def orElse (f : Fields δ) (name : String) (value? : δ → Option α) (missing : α) : Option α :=
  match f.lookup name with
  | none => some missing
  | some d => value? d

/-- A field that is nothing when it is left out or says so. -/
def option [Document δ] (f : Fields δ) (name : String) (value? : δ → Option α) :
    Option (Option α) :=
  f.orElse name (Document.option? value?) none

end Fields

/-- Keeps the fields with one of the names, each at most once. -/
def Fields.select? {δ : Type} (names : List String) : List (String × δ) → Option (Fields δ)
  | [] => some []
  | (key, d) :: rest => do
    let found ← select? names rest
    if names.contains key then
      if (found.lookup key).isSome then none else some ((key, d) :: found)
    else some found

end BinAtlas
