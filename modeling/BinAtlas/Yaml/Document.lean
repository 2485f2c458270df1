import BinAtlas.Document
import BinAtlas.Yaml.Node

/-! YAML as a document format. Plain scalars are numbers, flags or nothing, and so are literal ones with
the tag of what is wanted; every scalar is a text. An empty plain scalar is also an empty list and a
record without fields. An alias is read as what it stands for. -/

namespace BinAtlas.Yaml

namespace Node

/-- Digits in a base, without a sign. -/
def digits? (base : Nat) (cs : List Char) : Option Nat := Numeral.value? base cs

/-- A number in base ten, or after `0x`, `0o` or `0b`; one plus sign may stand before it. Digits
that start with a zero are no number. -/
def number? (cs : List Char) : Option Nat :=
  let cs := match cs with
    | '+' :: rest => rest
    | cs => cs
  match cs with
  | '0' :: 'x' :: ds => digits? 16 ds
  | '0' :: 'o' :: ds => digits? 8 ds
  | '0' :: 'b' :: ds => digits? 2 ds
  | ['0'] => some 0
  | '0' :: _ => none
  | ds => digits? 10 ds

/-- Whether a scalar may be read as a value with this tag. -/
def mayBe (wanted : String) (style : Style) (tag : Option Tag) : Bool :=
  style = .plain || (style = .literal && tag = some (Tag.core wanted))

/-- A number is read as a word. -/
def natural? : Node → Option Nat
  | .scalar text style tag =>
    if mayBe "int" style tag then (number? text.toList).filter (· < UInt64.size) else none
  | _ => none

def flag? : Node → Option Bool
  | .scalar text style tag =>
    if !mayBe "bool" style tag then none
    else if ["true", "True", "TRUE"].contains text then some true
    else if ["false", "False", "FALSE"].contains text then some false
    else none
  | _ => none

def text? : Node → Option String
  | .scalar text _ _ => some text
  | _ => none

def isNull (text : String) : Bool := ["~", "null", "Null", "NULL"].contains text

/-- With the tag of nothing a scalar must say so; another tag tells that there is a value. -/
def present? : Node → Option Bool
  | .scalar text .plain none => some (text ≠ "" && !isNull text)
  | .scalar text .plain (some tag) =>
    if tag ≠ Tag.core "null" then some true else if isNull text then some false else none
  | _ => some true

def items? : Node → Option (List Node)
  | .sequence items => some items
  | .scalar "" .plain _ => some []
  | _ => none

def entries? : Node → Option (List (Node × Node))
  | .mapping entries => some entries
  | .scalar "" .plain _ => some []
  | _ => none

mutual

/-- The nodes with an anchor, in the order in which they begin. -/
def targets : Node → List (Nat × Node)
  | .scalar .. | .alias _ => []
  | .sequence items => itemTargets items
  | .mapping entries => entryTargets entries
  | .anchored id node => (id, node) :: targets node

def itemTargets : List Node → List (Nat × Node)
  | [] => []
  | item :: items => targets item ++ itemTargets items

def entryTargets : List (Node × Node) → List (Nat × Node)
  | [] => []
  | (key, value) :: entries => targets key ++ targets value ++ entryTargets entries

end

end Node

/-- A node in a document. Of the nodes with the number of an alias the last one is meant, wherever the
alias stands. -/
structure Placed where
  targets : List (Nat × Node)
  node : Node

namespace Placed

def ofRoot (root : Node) : Placed := { targets := root.targets.reverse, node := root }

def ofText? (text : String) : Option Placed := (Node.ofText? text).map ofRoot

/-- The node without its anchor, or the one that an alias stands for. -/
def content? (p : Placed) : Option Node :=
  match p.node with
  | .anchored _ node => some node
  | .alias id => p.targets.lookup id
  | node => some node

def read? {α : Type} (p : Placed) (read? : Node → Option α) : Option α := p.content?.bind read?

def beside (p : Placed) (node : Node) : Placed := { p with node }

/-- The entries of a mapping whose keys are scalars. -/
def named? (p : Placed) (entries : List (Node × Node)) : Option (List (String × Placed)) :=
  entries.mapM fun (key, value) => ((p.beside key).read? Node.text?).map fun name => (name, p.beside value)

instance : Document Placed where
  natural? p := p.read? Node.natural?
  flag? p := p.read? Node.flag?
  text? p := p.read? Node.text?
  present? p := p.read? Node.present?
  items? p := (p.read? Node.items?).map fun items => items.map p.beside
  fields? names p := do Fields.select? names (← p.named? (← p.read? Node.entries?))

end Placed
end BinAtlas.Yaml
