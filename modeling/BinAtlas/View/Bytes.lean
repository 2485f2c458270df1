import BinAtlas.Host
import BinAtlas.Error

/-! Bytes and numbers at an address. -/

namespace BinAtlas.View

def getByte (v : View) (a : Address) : Except Error UInt8 :=
  if v.loaded a 1 then .ok (v.byte a) else .error (.notFound (.byte a))

def getWord (v : View) (a : Address) : Except Error UInt16 :=
  if v.loaded a 2 then .ok (v.word a) else .error (.notFound (.word a))

def getDword (v : View) (a : Address) : Except Error UInt32 :=
  if v.loaded a 4 then .ok (v.dword a) else .error (.notFound (.dword a))

def getQword (v : View) (a : Address) : Except Error UInt64 :=
  if v.loaded a 8 then .ok (v.qword a) else .error (.notFound (.qword a))

/-- Without a filler every byte must be loaded; with one, any range can be read. -/
def getBytes (v : View) (a : Address) (n : Nat) (fill : Option UInt8) :
    Except Error (List UInt8) :=
  match fill with
  | some b => .ok (v.bytes a n b)
  | none => if v.loaded a n then .ok (v.bytes a n 0) else .error (.notFound (.bytes n a))

/-- The contents of a string literal. The host supplies the width and the length that are not
given. -/
def getString (v : View) (a : Address) (length : Option Nat) (bits : Option UInt32) :
    Except Error (List UInt8) := do
  let kind ← match bits with
    | none => .ok (v.stringKind a)
    | some b =>
      match StringKind.ofBits? b with
      | some k => .ok k
      | none => .error (.invalidInput (.bitWidth b))
  match v.stringContents a (length.getD (v.stringLength a kind)) kind with
  | some bytes => .ok bytes
  | none => .error (.notFound (.string a))

end BinAtlas.View
