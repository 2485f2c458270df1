import BinAtlas.Reference
import BinAtlas.View.Segments
import BinAtlas.View.Symbols

/-! Answers as JSON objects, their fields in the order in which they are printed. -/

namespace BinAtlas

def ReferenceKind.encode (k : ReferenceKind) : Json := .text k.name

def Reference.encode (r : Reference) : Json :=
  .object [("from_address", .word r.source), ("to_address", .word r.target),
    ("type", r.kind.encode), ("is_code", .bool r.isCode), ("is_data", .bool r.isData)]

def Import.show (i : Import) : Json :=
  .object [("address", .word i.address), ("name", .text i.name), ("namespace", .text i.library)]

def Export.encode (e : Export) : Json :=
  .object [("address", .word e.address), ("name", .text e.name)]

/-- A target that is not there is left out. -/
def DataType.encode : DataType → Json
  | .leaf name size isPointer =>
    .object [("name", .text name), ("size", .word size), ("is_pointer", .bool isPointer)]
  | .link name size isPointer target =>
    .object [("name", .text name), ("size", .word size), ("is_pointer", .bool isPointer),
      ("pointee", target.encode)]

def Parameter.show (p : Parameter) : Json :=
  .object [("name", .text p.name), ("data_type", .text p.type)]

def Signature.show (s : Signature) : Json :=
  .object [("address", .word s.address), ("declaration", .text s.declaration),
    ("return_type", .text s.returnType), ("calling_convention", .text s.callingConvention),
    ("parameters", .listOf Parameter.show s.parameters)]

def Register.show (r : Register) : Json :=
  .object [("name", .text r.name), ("number", .word32 r.number), ("size", .word r.size)]

def Permissions.encode (p : Permissions) : Json :=
  .object [("read", .bool p.read), ("write", .bool p.write), ("execute", .bool p.execute)]

def Function.encode (f : Function) : Json :=
  .object [("start", .word f.start), ("end", .word f.stop), ("name", .text f.name)]

end BinAtlas
