import BinAtlas.Snapshot
import BinAtlas.Bytes.Hex
import BinAtlas.Json.Value

/-! Writing a snapshot as a JSON document with every field present. -/

namespace BinAtlas

def Region.encode (r : Region) : Json :=
  .object [("start", .word r.start), ("bytes", .text (Hex.encode r.bytes.toList))]

def FileRegion.encode (r : FileRegion) : Json :=
  .object [("address", .word r.address), ("offset", .word r.offset), ("size", .word r.size)]

def FunctionEntry.encode (f : FunctionEntry) : Json :=
  .object [("start", .word f.start), ("end", .word f.stop), ("name", .option .text f.name)]

def Parameter.encode (p : Parameter) : Json :=
  .object [("name", .text p.name), ("type", .text p.type)]

def Signature.encode (s : Signature) : Json :=
  .object [("address", .word s.address), ("declaration", .text s.declaration),
    ("return_type", .text s.returnType), ("calling_convention", .text s.callingConvention),
    ("parameters", .listOf Parameter.encode s.parameters)]

def SegmentEntry.encode (s : SegmentEntry) : Json :=
  .object [("name", .text s.name), ("start", .word s.start), ("end", .word s.stop),
    ("bitness", .option .word32 s.bitness), ("permissions", .text s.permissions)]

def Item.encode (i : Item) : Json :=
  .object [("address", .word i.address), ("size", .word i.size), ("code", .bool i.isCode),
    ("name", .option .text i.name), ("type", .option .text i.type),
    ("string_width", .option .word32 i.stringWidth)]

def Edge.encode (e : Edge) : Json :=
  .object [("from", .word e.source), ("to", .word e.target), ("type", .nat e.kind.toNat),
    ("code", .bool e.isCode)]

def TypeEntry.encode (t : TypeEntry) : Json :=
  .object [("name", .text t.name), ("size", .word t.size)]

def Register.encode (r : Register) : Json :=
  .object [("name", .text r.name), ("number", .word32 r.number), ("size", .word r.size)]

def Import.encode (i : Import) : Json :=
  .object [("address", .word i.address), ("name", .text i.name), ("namespace", .text i.library)]

def ExportEntry.encode (e : ExportEntry) : Json :=
  .object [("ordinal", .word e.ordinal), ("address", .word e.address), ("name", .text e.name)]

def Snapshot.encode (s : Snapshot) : Json :=
  .object [("sdk_version", .word32 s.sdkVersion), ("bitness", .word32 s.bitness),
    ("big_endian", .bool s.bigEndian), ("processor", .text s.processor),
    ("min_address", .option .word s.minAddress), ("max_address", .option .word s.maxAddress),
    ("memory", .listOf Region.encode s.memory),
    ("file_regions", .listOf FileRegion.encode s.fileRegions),
    ("functions", .listOf FunctionEntry.encode s.functions),
    ("signatures", .listOf Signature.encode s.signatures),
    ("segments", .listOf SegmentEntry.encode s.segments),
    ("items", .listOf Item.encode s.items), ("xrefs", .listOf Edge.encode s.edges),
    ("types", .listOf TypeEntry.encode s.types),
    ("registers", .listOf Register.encode s.registers),
    ("imports", .listOf Import.encode s.imports),
    ("exports", .listOf ExportEntry.encode s.exports)]

end BinAtlas
