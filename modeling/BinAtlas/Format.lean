import BinAtlas.Document

/-! The two formats of documents, and what it takes to read one of them. -/

namespace BinAtlas

inductive Format where
  | json
  | yaml
  deriving DecidableEq

namespace Format

def name : Format → String
  | .json => "JSON"
  | .yaml => "YAML"

/-- What is said of a document after its kind. -/
def complaint (f : Format) : String := s!"not a {f.name} document of the expected form"

end Format

/-- Reads the texts of a format. What a text is read as can be looked into as a document. -/
structure Reader where
  Node : Type
  document : Document Node
  read? : String → Option Node

/-- Reads a text as a record. -/
def Reader.record? {α : Type} (r : Reader) (decode? : {δ : Type} → [Document δ] → δ → Option α)
    (text : String) : Option α :=
  (r.read? text).bind (@decode? r.Node r.document)

end BinAtlas
