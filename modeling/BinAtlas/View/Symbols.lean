import BinAtlas.DataType
import BinAtlas.Error
import BinAtlas.Text.Upper

/-! Names that stand for something outside the listing: types, registers, imports and exports. -/

namespace BinAtlas

structure Export where
  address : Address
  name : String
  deriving DecidableEq

namespace View

def isTypeMark (c : Char) : Bool := c == ' ' || c == '*'

/-- The key of a type name: without blanks and stars around it, in upper case. -/
def typeKey (name : String) : String :=
  Text.upper (String.ofList (Text.trimBy isTypeMark name.toList))

/-- Whether a type name asks for a pointer. -/
def asksPointer (name : String) : Bool := name.toList.getLast? == some '*'

def getDataType (v : View) (name : String) : Except Error DataType :=
  let key := typeKey name
  match v.namedType key with
  | none => .error (.notFound (.dataType key))
  | some base => .ok (DataType.ofHost (if asksPointer name then v.pointerTo base else base))

def getRegister (v : View) (name : String) : Except Error Register :=
  match v.register name with
  | some r => .ok r
  | none => .error (.notFound (.register name))

def getImport (v : View) (name : String) : Except Error Import :=
  match v.imports.find? fun i => i.name == name with
  | some i => .ok i
  | none => .error (.notFound (.importNamed name))

/-- The export with a number, address and name found by its ordinal. -/
def exportAt (v : View) (i : Nat) : Export :=
  let ordinal := v.exportOrdinal i
  { address := v.exportAddress ordinal, name := v.exportName ordinal }

def exports (v : View) : List Export := (List.range v.exportCount).map v.exportAt

/-- The first export of a name among `n` of them from number `i` on. -/
def exportFrom? (v : View) (name : String) (i : Nat) : Nat → Option Export
  | 0 => none
  | n + 1 =>
    if v.exportName (v.exportOrdinal i) == name then some (v.exportAt i)
    else v.exportFrom? name (i + 1) n

/-- Goes through the exports only as far as the first one of the name. -/
def getExport (v : View) (name : String) : Except Error Export :=
  match v.exportFrom? name 0 v.exportCount with
  | some e => .ok e
  | none => .error (.notFound (.exportNamed name))

end View
end BinAtlas
