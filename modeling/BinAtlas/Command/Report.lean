import BinAtlas.Atlas
import BinAtlas.Bytes.Hex
import BinAtlas.Model.Encode

/-! What a command found out, as lines for a reader or as JSON. -/

namespace BinAtlas

inductive Report where
  | info (i : AtlasInfo)
  | functions (l : List Function)
  | segments (l : List Segment)
  | segment (g : Segment)
  | references (a : Address) (direction : Direction) (l : List Reference)
  | imports (l : List Import)
  | exports (l : List Export)
  | bytes (a : Address) (data : List UInt8)
  | string (a : Address) (data : List UInt8)
  | dataType (t : DataType)
  | variable (v : Variable)
  | fileOffset (a : Address) (offset : UInt64)
  | virtualAddress (offset : UInt64) (a : Address)

namespace Report

/-- The permissions as three letters, a dash for each that is not given. -/
def permissionText (p : Permissions) : String :=
  String.ofList [if p.read then 'r' else '-', if p.write then 'w' else '-',
    if p.execute then 'x' else '-']

def functionLine (f : Function) : String := s!"{f.start.text8}-{f.stop.text8} {f.name}"

def segmentLine (g : Segment) : String :=
  s!"{g.name} {g.start.text8}-{g.stop.text8} {permissionText g.permissions} {g.bitness}-bit"

def referenceLine (r : Reference) : String :=
  s!"{r.source.text8} -> {r.target.text8} {r.kind.name}"

def importLine (i : Import) : String := s!"{i.address.text8} {i.library}!{i.name}"

def exportLine (e : Export) : String := s!"{e.address.text8} {e.name}"

def bytesLine (a : Address) (data : List UInt8) : String := s!"{a.text8}: {Hex.encode data}"

def typeLine (t : DataType) : String :=
  let pointer := if t.isPointer then " pointer" else ""
  s!"{t.name} ({t.size} bytes{pointer})"

def variableLine (v : Variable) : String :=
  let type := (v.dataType.map DataType.name).getD "-"
  s!"{v.address.text8} {v.name} [{v.size} bytes, type: {type}]"

def directionText : Direction → String
  | .outgoing => "from"
  | .incoming => "to"

def infoLines (i : AtlasInfo) : List String :=
  ["Database Info", "=============", s!"Snapshot: {i.snapshot}", s!"SHA-256: {i.sha256}",
    s!"Host: {i.host}", s!"Processor: {i.processor}", s!"Bit size: {i.bitSize}",
    "Endianness: " ++ (if i.bigEndian then "big" else "little"),
    s!"Address range: {i.minAddress.text}-{i.maxAddress.text}"]

def segmentJson (g : Segment) : Json :=
  .object [("name", .text g.name), ("start", .word g.start), ("end", .word g.stop),
    ("bit_size", .word32 g.bitness), ("permissions", g.permissions.encode)]

def json : Report → Json
  | .info i => i.encode
  | .functions l => .listOf Function.encode l
  | .segments l => .listOf segmentJson l
  | .segment g => segmentJson g
  | .references _ _ l => .listOf Reference.encode l
  | .imports l => .listOf Import.show l
  | .exports l => .listOf Export.encode l
  | .bytes a data => .object [("address", .word a), ("bytes", .text (Hex.encode data))]
  | .string a data =>
    .object [("address", .word a), ("bytes", .text (Hex.encode data)),
      ("text", .text (Utf8.decodeLossy data))]
  | .dataType t => t.encode
  | .variable v =>
    .object [("address", .word v.address), ("name", .text v.name), ("size", .word v.size),
      ("data_type", .option DataType.encode v.dataType)]
  | .fileOffset a o => .object [("address", .word a), ("file_offset", .word o)]
  | .virtualAddress o a => .object [("address", .word a), ("file_offset", .word o)]

end Report
end BinAtlas
