import BinAtlas.Reference
import BinAtlas.DataType
import BinAtlas.View.Symbols
import BinAtlas.Json.Document

/-! Answers read back from JSON. Every field must be present, but for the target of a type. -/

namespace BinAtlas

open Json (flag? text?)
open Document (word? word32? list?)

/-- A name, or an object with the name as its only key and nothing in it. -/
def ReferenceKind.decode? : Json → Option ReferenceKind
  | .text s => ofName? s
  | .object [(s, .null)] => ofName? s
  | _ => none

def Reference.decode? (d : Json) : Option Reference := do
  let f ← Json.fields? ["from_address", "to_address", "type", "is_code", "is_data"] d
  let source ← f.required "from_address" word?
  let target ← f.required "to_address" word?
  let kind ← f.required "type" ReferenceKind.decode?
  let isCode ← f.required "is_code" flag?
  let isData ← f.required "is_data" flag?
  return { source, target, kind, isCode, isData }

def Import.parse? (d : Json) : Option Import := do
  let f ← Json.fields? ["address", "name", "namespace"] d
  let address ← f.required "address" word?
  let name ← f.required "name" text?
  let library ← f.required "namespace" text?
  return { address, name, library }

def Export.decode? (d : Json) : Option Export := do
  let f ← Json.fields? ["address", "name"] d
  let address ← f.required "address" word?
  let name ← f.required "name" text?
  return { address, name }

/-- Reads at most `n` types, each the target of the one before it. -/
def DataType.decodeWithin? : Nat → Json → Option DataType
  | 0, _ => none
  | n + 1, d => do
    let f ← Json.fields? ["name", "size", "is_pointer", "pointee"] d
    let name ← f.required "name" text?
    let size ← f.required "size" word?
    let isPointer ← f.required "is_pointer" flag?
    match ← f.option "pointee" (decodeWithin? n) with
    | none => return .leaf name size isPointer
    | some target => return .link name size isPointer target

/-- A document may be nested 127 deep. -/
def DataType.decode? (d : Json) : Option DataType := decodeWithin? 127 d

def Parameter.parse? (d : Json) : Option Parameter := do
  let f ← Json.fields? ["name", "data_type"] d
  let name ← f.required "name" text?
  let type ← f.required "data_type" text?
  return { name, type }

def Signature.parse? (d : Json) : Option Signature := do
  let f ← Json.fields?
    ["address", "declaration", "return_type", "calling_convention", "parameters"] d
  let address ← f.required "address" word?
  let declaration ← f.required "declaration" text?
  let returnType ← f.required "return_type" text?
  let callingConvention ← f.required "calling_convention" text?
  let parameters ← f.required "parameters" (list? Parameter.parse?)
  return { address, declaration, returnType, callingConvention, parameters }

def Register.parse? (d : Json) : Option Register := do
  let f ← Json.fields? ["name", "number", "size"] d
  let name ← f.required "name" text?
  let number ← f.required "number" word32?
  let size ← f.required "size" word?
  return { name, number, size }

def Permissions.decode? (d : Json) : Option Permissions := do
  let f ← Json.fields? ["read", "write", "execute"] d
  let read ← f.required "read" flag?
  let write ← f.required "write" flag?
  let execute ← f.required "execute" flag?
  return { read, write, execute }

end BinAtlas
