import BinAtlas.Snapshot
import BinAtlas.Document
import BinAtlas.Bytes.Hex

/-! Reading a snapshot from a document of either format. A table that is left out is empty. -/

namespace BinAtlas

open Document (word? word32? byte? flag? text? list?)

variable {δ : Type} [Document δ]

namespace Region

def bytes? (d : δ) : Option (Array UInt8) := do
  return (← Hex.decode? (← text? d)).toArray

def names : List String := ["start", "bytes"]

def decode? (d : δ) : Option Region := do
  let f ← Document.fields? names d
  let start ← f.required "start" word?
  let bytes ← f.required "bytes" bytes?
  return { start, bytes }

end Region

namespace FileRegion

def names : List String := ["address", "offset", "size"]

def decode? (d : δ) : Option FileRegion := do
  let f ← Document.fields? names d
  let address ← f.required "address" word?
  let offset ← f.required "offset" word?
  let size ← f.required "size" word?
  return { address, offset, size }

end FileRegion

namespace FunctionEntry

def names : List String := ["start", "end", "name"]

def decode? (d : δ) : Option FunctionEntry := do
  let f ← Document.fields? names d
  let start ← f.required "start" word?
  let stop ← f.required "end" word?
  let name ← f.option "name" text?
  return { start, stop, name }

end FunctionEntry

namespace Parameter

def names : List String := ["name", "type"]

def decode? (d : δ) : Option Parameter := do
  let f ← Document.fields? names d
  let name ← f.required "name" text?
  let type ← f.required "type" text?
  return { name, type }

end Parameter

namespace Signature

def names : List String :=
  ["address", "declaration", "return_type", "calling_convention", "parameters"]

def decode? (d : δ) : Option Signature := do
  let f ← Document.fields? names d
  let address ← f.required "address" word?
  let declaration ← f.required "declaration" text?
  let returnType ← f.orElse "return_type" text? ""
  let callingConvention ← f.orElse "calling_convention" text? ""
  let parameters ← f.orElse "parameters" (list? Parameter.decode?) []
  return { address, declaration, returnType, callingConvention, parameters }

end Signature

namespace SegmentEntry

def names : List String := ["name", "start", "end", "bitness", "permissions"]

def decode? (d : δ) : Option SegmentEntry := do
  let f ← Document.fields? names d
  let name ← f.required "name" text?
  let start ← f.required "start" word?
  let stop ← f.required "end" word?
  let bitness ← f.option "bitness" word32?
  let permissions ← f.orElse "permissions" text? "rwx"
  return { name, start, stop, bitness, permissions }

end SegmentEntry

namespace Item

def names : List String := ["address", "size", "code", "name", "type", "string_width"]

def decode? (d : δ) : Option Item := do
  let f ← Document.fields? names d
  let address ← f.required "address" word?
  let size ← f.orElse "size" word? 1
  let isCode ← f.orElse "code" flag? false
  let name ← f.option "name" text?
  let type ← f.option "type" text?
  let stringWidth ← f.option "string_width" word32?
  return { address, size, isCode, name, type, stringWidth }

end Item

namespace Edge

def names : List String := ["from", "to", "type", "code"]

def decode? (d : δ) : Option Edge := do
  let f ← Document.fields? names d
  let source ← f.required "from" word?
  let target ← f.required "to" word?
  let kind ← f.required "type" byte?
  let isCode ← f.orElse "code" flag? false
  return { source, target, kind, isCode }

end Edge

namespace TypeEntry

def names : List String := ["name", "size"]

def decode? (d : δ) : Option TypeEntry := do
  let f ← Document.fields? names d
  let name ← f.required "name" text?
  let size ← f.required "size" word?
  return { name, size }

end TypeEntry

namespace Register

def names : List String := ["name", "number", "size"]

def decode? (d : δ) : Option Register := do
  let f ← Document.fields? names d
  let name ← f.required "name" text?
  let number ← f.required "number" word32?
  let size ← f.required "size" word?
  return { name, number, size }

end Register

namespace Import

def names : List String := ["address", "name", "namespace"]

def decode? (d : δ) : Option Import := do
  let f ← Document.fields? names d
  let address ← f.required "address" word?
  let name ← f.required "name" text?
  let library ← f.orElse "namespace" text? ""
  return { address, name, library }

end Import

namespace ExportEntry

def names : List String := ["ordinal", "address", "name"]

def decode? (d : δ) : Option ExportEntry := do
  let f ← Document.fields? names d
  let ordinal ← f.required "ordinal" word?
  let address ← f.required "address" word?
  let name ← f.required "name" text?
  return { ordinal, address, name }

end ExportEntry

namespace Snapshot

def names : List String :=
  ["sdk_version", "bitness", "big_endian", "processor", "min_address", "max_address", "memory",
    "file_regions", "functions", "signatures", "segments", "items", "xrefs", "types", "registers",
    "imports", "exports"]

def decode? (d : δ) : Option Snapshot := do
  let f ← Document.fields? names d
  let sdkVersion ← f.orElse "sdk_version" word32? 900
  let bitness ← f.orElse "bitness" word32? 64
  let bigEndian ← f.orElse "big_endian" flag? false
  let processor ← f.orElse "processor" text? "metapc"
  let minAddress ← f.option "min_address" word?
  let maxAddress ← f.option "max_address" word?
  let memory ← f.orElse "memory" (list? Region.decode?) []
  let fileRegions ← f.orElse "file_regions" (list? FileRegion.decode?) []
  let functions ← f.orElse "functions" (list? FunctionEntry.decode?) []
  let signatures ← f.orElse "signatures" (list? Signature.decode?) []
  let segments ← f.orElse "segments" (list? SegmentEntry.decode?) []
  let items ← f.orElse "items" (list? Item.decode?) []
  let edges ← f.orElse "xrefs" (list? Edge.decode?) []
  let types ← f.orElse "types" (list? TypeEntry.decode?) []
  let registers ← f.orElse "registers" (list? Register.decode?) []
  let imports ← f.orElse "imports" (list? Import.decode?) []
  let exports ← f.orElse "exports" (list? ExportEntry.decode?) []
  return { sdkVersion, bitness, bigEndian, processor, minAddress, maxAddress, memory, fileRegions,
           functions, signatures, segments, items, edges, types, registers, imports, exports }

end Snapshot
end BinAtlas
