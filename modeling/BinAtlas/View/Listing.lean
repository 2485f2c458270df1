import BinAtlas.View.Bytes
import BinAtlas.DataType
import BinAtlas.Reference

/-! The listing: names, lines, variables and references. -/

namespace BinAtlas

/-- An instruction or a piece of data, or a byte that belongs to none. -/
structure Line where
  address : Address
  size : UInt64
  isCode : Bool
  name : Option String
  data : Except Error (List UInt8)

/-- A named item that is not code. -/
structure Variable where
  address : Address
  name : String
  size : UInt64
  dataType : Option DataType
  data : Except Error (List UInt8)

namespace View

/-- A name that is not empty. -/
def name? (v : View) (a : Address) : Option String := (v.nameAt a).filter (· ≠ "")

def getName (v : View) (a : Address) : Except Error String :=
  match v.name? a with
  | some n => .ok n
  | none => .error (.notFound (.name a))

/-- The distance from an address to the end of its item. -/
def sizeAt (v : View) (a : Address) : UInt64 := Address.saturatingSub (v.itemEnd a) a

def lineAt (v : View) (head : Address) : Line :=
  { address := head
    size := v.sizeAt head
    isCode := v.isCode head
    name := v.name? head
    data := v.getBytes head (v.sizeAt head).toNat none }

/-- The line around an address. -/
def getLine (v : View) (a : Address) : Line := v.lineAt (v.itemHead a)

/-- The variable around an address. A name on code is a label. -/
def getVariable (v : View) (a : Address) : Except Error Variable :=
  let head := v.itemHead a
  match if v.isCode head then none else v.name? head with
  | some name =>
    .ok
      { address := head
        name
        size := v.sizeAt head
        dataType := (v.itemType head).map DataType.ofHost
        data := v.getBytes head (v.sizeAt head).toNat none }
  | none => .error (.notFound (.variable a))

/-- Whether a reference only falls through to the next instruction. -/
def isFlow : Except Error Reference → Bool
  | .ok r => r.kind == .ordinaryFlow
  | .error _ => false

/-- References that leave an address, but for ordinary flow. -/
def referencesFrom (v : View) (a : Address) : List (Except Error Reference) :=
  ((v.edgesFrom a).map Reference.ofEdge).filter fun r => !isFlow r

/-- References that arrive at an address, with ordinary flow. -/
def referencesTo (v : View) (a : Address) : List (Except Error Reference) :=
  (v.edgesTo a).map Reference.ofEdge

end View
end BinAtlas
