import BinAtlas.Command.Report
import BinAtlas.Proofs.Abridged
import BinAtlas.Proofs.AddressText
import BinAtlas.Proofs.Hex
import BinAtlas.Model.Decode
import Mathlib.Data.List.Forall2

/-! What has to stand in a report, told of the answer and not of the way it is printed. As JSON every field
of the answer is read back from a field of the document; as text every line is made of pieces of which each
is a part of the answer. -/

namespace BinAtlas

open Document (word? word32? flag? text?)

namespace Json

/-- The object has a field of which something is told. -/
def Holds (v : Json) (name : String) (told : Json → Prop) : Prop :=
  ∃ fields x, v = .object fields ∧ fields.lookup name = some x ∧ told x

/-- The object has a field from which a value is read. -/
abbrev Gives {α : Type} (v : Json) (name : String) (read? : Json → Option α) (a : α) : Prop :=
  v.Holds name fun x => read? x = some a

/-- The object does not have a field. -/
def Lacks (v : Json) (name : String) : Prop := ∃ fields, v = .object fields ∧ fields.lookup name = none

/-- The list has a row for each element, in order. -/
def Lists {α : Type} (v : Json) (row : α → Json → Prop) (l : List α) : Prop :=
  ∃ rows, v = .list rows ∧ List.Forall₂ row l rows

variable {fields : List (String × Json)} {name : String} {x : Json} {told : Json → Prop}

theorem holds_object (h : fields.lookup name = some x) (hx : told x) : (object fields).Holds name told :=
  ⟨fields, x, rfl, h, hx⟩

theorem lists_listOf {α : Type} {row : α → Json → Prop} {encode : α → Json} (h : ∀ a, row a (encode a))
    (l : List α) : (listOf encode l).Lists row l :=
  ⟨_, rfl, by simpa using fun a _ => h a⟩

end Json

/-! ## Documents -/

structure Function.Documented (f : Function) (v : Json) : Prop where
  start : v.Gives "start" word? f.start
  stop : v.Gives "end" word? f.stop
  name : v.Gives "name" text? f.name

structure Permissions.Documented (p : Permissions) (v : Json) : Prop where
  read : v.Gives "read" flag? p.read
  write : v.Gives "write" flag? p.write
  execute : v.Gives "execute" flag? p.execute

structure Segment.Documented (g : Segment) (v : Json) : Prop where
  name : v.Gives "name" text? g.name
  start : v.Gives "start" word? g.start
  stop : v.Gives "end" word? g.stop
  bitness : v.Gives "bit_size" word32? g.bitness
  permissions : v.Holds "permissions" g.permissions.Documented

structure Reference.Documented (r : Reference) (v : Json) : Prop where
  source : v.Gives "from_address" word? r.source
  target : v.Gives "to_address" word? r.target
  kind : v.Gives "type" ReferenceKind.decode? r.kind
  isCode : v.Gives "is_code" flag? r.isCode
  isData : v.Gives "is_data" flag? r.isData

structure Import.Documented (i : Import) (v : Json) : Prop where
  address : v.Gives "address" word? i.address
  name : v.Gives "name" text? i.name
  library : v.Gives "namespace" text? i.library

structure Export.Documented (e : Export) (v : Json) : Prop where
  address : v.Gives "address" word? e.address
  name : v.Gives "name" text? e.name

/-- A type with all its targets, one inside the other. -/
inductive DataType.Documented : DataType → Json → Prop
  | leaf {name size isPointer v} (hname : v.Gives "name" text? name) (hsize : v.Gives "size" word? size)
    (hpointer : v.Gives "is_pointer" flag? isPointer) (hnone : v.Lacks "pointee") :
    Documented (.leaf name size isPointer) v
  | link {name size isPointer target v x} (hname : v.Gives "name" text? name) (hsize : v.Gives "size" word? size)
    (hpointer : v.Gives "is_pointer" flag? isPointer) (hfield : v.Holds "pointee" (· = x))
    (htarget : Documented target x) : Documented (.link name size isPointer target) v

/-- The bytes are read from their digits. -/
def bytes? (v : Json) : Option (List UInt8) := (text? v).bind Hex.decode?

structure Variable.Documented (x : Variable) (v : Json) : Prop where
  address : v.Gives "address" word? x.address
  name : v.Gives "name" text? x.name
  size : v.Gives "size" word? x.size
  typed : ∀ t, x.dataType = some t → v.Holds "data_type" t.Documented
  untyped : x.dataType = none → v.Holds "data_type" (· = .null)

structure AtlasInfo.Documented (i : AtlasInfo) (v : Json) : Prop where
  snapshot : v.Gives "snapshot" text? i.snapshot
  sha256 : v.Gives "sha256" text? i.sha256
  host : v.Gives "host" text? i.host
  processor : v.Gives "processor" text? i.processor
  bitSize : v.Gives "bit_size" word32? i.bitSize
  bigEndian : v.Gives "big_endian" flag? i.bigEndian
  minAddress : v.Gives "min_address" word? i.minAddress
  maxAddress : v.Gives "max_address" word? i.maxAddress
  capacity : v.Gives "cache_capacity" Json.natural? i.capacity

namespace Report

/-- The document has all of the answer in it. -/
def Documented (v : Json) : Report → Prop
  | .info i => i.Documented v
  | .functions l => v.Lists Function.Documented l
  | .segments l => v.Lists Segment.Documented l
  | .segment g => g.Documented v
  | .references _ _ l => v.Lists Reference.Documented l
  | .imports l => v.Lists Import.Documented l
  | .exports l => v.Lists Export.Documented l
  | .bytes a data => v.Gives "address" word? a ∧ v.Gives "bytes" bytes? data
  | .string a data =>
    v.Gives "address" word? a ∧ v.Gives "bytes" bytes? data ∧ v.Gives "text" text? (Utf8.decodeLossy data)
  | .dataType t => t.Documented v
  | .variable x => x.Documented v
  | .fileOffset a o => v.Gives "address" word? a ∧ v.Gives "file_offset" word? o
  | .virtualAddress o a => v.Gives "file_offset" word? o ∧ v.Gives "address" word? a

end Report

section Encode

open Json (holds_object lists_listOf word?_word word32?_word32 text?_text flag?_bool)

theorem Function.documented_encode (f : Function) : f.Documented f.encode where
  start := holds_object rfl (word?_word _)
  stop := holds_object rfl (word?_word _)
  name := holds_object rfl (text?_text _)

theorem Permissions.documented_encode (p : Permissions) : p.Documented p.encode where
  read := holds_object rfl (flag?_bool _)
  write := holds_object rfl (flag?_bool _)
  execute := holds_object rfl (flag?_bool _)

theorem Segment.documented_encode (g : Segment) : g.Documented (Report.segmentJson g) where
  name := holds_object rfl (text?_text _)
  start := holds_object rfl (word?_word _)
  stop := holds_object rfl (word?_word _)
  bitness := holds_object rfl (word32?_word32 _)
  permissions := holds_object rfl g.permissions.documented_encode

theorem ReferenceKind.decode?_encode (k : ReferenceKind) : decode? k.encode = some k := by
  cases k <;> rfl

theorem Reference.documented_encode (r : Reference) : r.Documented r.encode where
  source := holds_object rfl (word?_word _)
  target := holds_object rfl (word?_word _)
  kind := holds_object rfl r.kind.decode?_encode
  isCode := holds_object rfl (flag?_bool _)
  isData := holds_object rfl (flag?_bool _)

theorem Import.documented_show (i : Import) : i.Documented i.show where
  address := holds_object rfl (word?_word _)
  name := holds_object rfl (text?_text _)
  library := holds_object rfl (text?_text _)

theorem Export.documented_encode (e : Export) : e.Documented e.encode where
  address := holds_object rfl (word?_word _)
  name := holds_object rfl (text?_text _)

theorem DataType.documented_encode (t : DataType) : t.Documented t.encode := by
  induction t with
  | leaf name size isPointer =>
    exact .leaf (holds_object rfl (text?_text _)) (holds_object rfl (word?_word _)) (holds_object rfl (flag?_bool _))
      ⟨_, rfl, rfl⟩
  | link name size isPointer target ih =>
    exact .link (holds_object rfl (text?_text _)) (holds_object rfl (word?_word _)) (holds_object rfl (flag?_bool _))
      (holds_object rfl rfl) ih

theorem bytes?_encode (data : List UInt8) : bytes? (.text (Hex.encode data)) = some data := Hex.decode?_encode data

theorem AtlasInfo.documented_encode (i : AtlasInfo) : i.Documented i.encode where
  snapshot := holds_object rfl (text?_text _)
  sha256 := holds_object rfl (text?_text _)
  host := holds_object rfl (text?_text _)
  processor := holds_object rfl (text?_text _)
  bitSize := holds_object rfl (word32?_word32 _)
  bigEndian := holds_object rfl (flag?_bool _)
  minAddress := holds_object rfl (word?_word _)
  maxAddress := holds_object rfl (word?_word _)
  capacity := holds_object rfl rfl

/-- What is written of an answer has all of it. -/
theorem Report.documented_json (r : Report) : r.Documented r.json := by
  cases r with
  | info i => exact i.documented_encode
  | functions l => exact lists_listOf Function.documented_encode l
  | segments l => exact lists_listOf Segment.documented_encode l
  | segment g => exact g.documented_encode
  | references a d l => exact lists_listOf Reference.documented_encode l
  | imports l => exact lists_listOf Import.documented_show l
  | exports l => exact lists_listOf Export.documented_encode l
  | bytes a data => exact ⟨holds_object rfl (word?_word _), holds_object rfl (bytes?_encode _)⟩
  | string a data =>
    exact ⟨holds_object rfl (word?_word _), holds_object rfl (bytes?_encode _), holds_object rfl (text?_text _)⟩
  | dataType t => exact t.documented_encode
  | «variable» x =>
    constructor
    case address => exact holds_object rfl (word?_word _)
    case name => exact holds_object rfl (text?_text _)
    case size => exact holds_object rfl (word?_word _)
    case typed =>
      intro t ht
      refine holds_object rfl ?_
      rw [ht]
      exact t.documented_encode
    case untyped =>
      intro hnone
      refine holds_object rfl ?_
      rw [hnone]
      rfl
  | fileOffset a o => exact ⟨holds_object rfl (word?_word _), holds_object rfl (word?_word _)⟩
  | virtualAddress o a => exact ⟨holds_object rfl (word?_word _), holds_object rfl (word?_word _)⟩

end Encode

/-! ## Lines -/

/-- What is told of the pieces of a line, one after another. -/
abbrev Template := List (String → Prop)

namespace Template

/-- The line is made of such pieces. -/
def Fits (template : Template) (line : String) : Prop :=
  ∃ pieces, List.Forall₂ (fun told piece => told piece) template pieces ∧ line = String.join pieces

/-- A piece that reads like this. -/
def lit (text : String) : String → Prop := (· = text)

/-- A piece that names the address, in hexadecimal. -/
def address (a : Address) (piece : String) : Prop :=
  ∃ digits, piece = "0x" ++ String.ofList digits ∧ Numeral.Writes 16 digits a.toNat

/-- A piece with the digits of the bytes. -/
def hexBytes (data : List UInt8) (piece : String) : Prop := Hex.decode? piece = some data

def decimal (n : Nat) : String → Prop := lit (toString n)

/-- A letter for what is allowed, a dash for what is not. -/
def letter (allowed : Bool) (c : String) : String → Prop := lit (if allowed then c else "-")

theorem address_text (a : Address) : address a a.text := ⟨_, rfl, Numeral.writes_toDigits (by decide) _⟩

theorem address_text8 (a : Address) : address a a.text8 := ⟨_, rfl, Address.writes_hex8 _⟩

theorem decimal_word32 (n : UInt32) : decimal n.toNat (toString n) := rfl

theorem decimal_word (n : UInt64) : decimal n.toNat (toString n) := rfl

theorem hexBytes_encode (data : List UInt8) : hexBytes data (Hex.encode data) := Hex.decode?_encode data

end Template

open Template

namespace Report

def functionTemplate (f : Function) : Template := [address f.start, lit "-", address f.stop, lit " ", lit f.name]

def segmentTemplate (g : Segment) : Template :=
  [lit g.name, lit " ", address g.start, lit "-", address g.stop, lit " ", letter g.permissions.read "r",
    letter g.permissions.write "w", letter g.permissions.execute "x", lit " ", decimal g.bitness.toNat, lit "-bit"]

def referenceTemplate (r : Reference) : Template :=
  [address r.source, lit " -> ", address r.target, lit " ", lit r.kind.name]

def importTemplate (i : Import) : Template := [address i.address, lit " ", lit i.library, lit "!", lit i.name]

def exportTemplate (e : Export) : Template := [address e.address, lit " ", lit e.name]

def typeTemplate (t : DataType) : Template :=
  [lit t.name, lit " (", decimal t.size.toNat, lit " bytes", lit (if t.isPointer then " pointer" else ""), lit ")"]

def variableTemplate (x : Variable) : Template :=
  [address x.address, lit " ", lit x.name, lit " [", decimal x.size.toNat, lit " bytes, type: ",
    lit (match x.dataType with | some t => t.name | none => "-"), lit "]"]

def infoTemplates (i : AtlasInfo) : List Template :=
  [[lit "Database Info"], [lit "============="], [lit "Snapshot: ", lit i.snapshot], [lit "SHA-256: ", lit i.sha256],
    [lit "Host: ", lit i.host], [lit "Processor: ", lit i.processor], [lit "Bit size: ", decimal i.bitSize.toNat],
    [lit "Endianness: ", lit (if i.bigEndian then "big" else "little")],
    [lit "Address range: ", address i.minAddress, lit "-", address i.maxAddress]]

/-- A heading with the number of elements, and a line for each of them or one that there are none. -/
def listing {α : Type} (heading : Template) (row : α → Template) (l : List α) : List Template :=
  (heading ++ [lit " (", decimal l.length, lit "):"]) ::
    match l with
    | [] => [[lit "  (none)"]]
    | l => l.map fun a => lit "  - " :: row a

/-- What is told of the lines of a report. -/
def templates : Report → List Template
  | .info i => infoTemplates i
  | .functions l => listing [lit "Functions"] functionTemplate l
  | .segments l => listing [lit "Segments"] segmentTemplate l
  | .segment g => [lit "  - " :: segmentTemplate g]
  | .references a .outgoing l => listing [lit "References from ", address a] referenceTemplate l
  | .references a .incoming l => listing [lit "References to ", address a] referenceTemplate l
  | .imports l => listing [lit "Imports"] importTemplate l
  | .exports l => listing [lit "Exports"] exportTemplate l
  | .bytes a data => [[address a, lit ": ", hexBytes data]]
  | .string _ data => [[lit (Utf8.decodeLossy data)]]
  | .dataType t => [typeTemplate t]
  | .variable x => [variableTemplate x]
  | .fileOffset _ o => [[address o]]
  | .virtualAddress _ a => [[address a]]

end Report

namespace Template

variable {s t : Template} {line rest : String}

theorem fits_lit (text : String) : Fits [lit text] text := ⟨[text], by simp [lit], by simp [String.join]⟩

theorem Fits.append (hs : s.Fits line) (ht : t.Fits rest) : Fits (s ++ t) (line ++ rest) := by
  obtain ⟨pieces, hpieces, rfl⟩ := hs
  obtain ⟨more, hmore, rfl⟩ := ht
  exact ⟨pieces ++ more, List.rel_append hpieces hmore, String.join_append.symm⟩

end Template

namespace Report

/-- What an interpolated text makes of a text. -/
theorem toString_text (s : String) : toString s = s := rfl

theorem fits_functionLine (f : Function) : (functionTemplate f).Fits (functionLine f) := by
  refine ⟨[f.start.text8, "-", f.stop.text8, " ", f.name], ?_, ?_⟩
  · simp [functionTemplate, lit, address_text8]
  · simp [functionLine, String.join, toString_text]

theorem permissionText_eq (p : Permissions) : permissionText p =
    String.join [if p.read then "r" else "-", if p.write then "w" else "-", if p.execute then "x" else "-"] := by
  unfold permissionText
  cases p.read <;> cases p.write <;> cases p.execute <;> rfl

theorem fits_segmentLine (g : Segment) : (segmentTemplate g).Fits (segmentLine g) := by
  refine ⟨[g.name, " ", g.start.text8, "-", g.stop.text8, " ", if g.permissions.read then "r" else "-",
    if g.permissions.write then "w" else "-", if g.permissions.execute then "x" else "-", " ",
    toString g.bitness, "-bit"], ?_, ?_⟩
  · simp [segmentTemplate, lit, letter, decimal_word32, address_text8]
  · simp [segmentLine, permissionText_eq, String.join, String.append_assoc, toString_text]

theorem fits_referenceLine (r : Reference) : (referenceTemplate r).Fits (referenceLine r) := by
  refine ⟨[r.source.text8, " -> ", r.target.text8, " ", r.kind.name], ?_, ?_⟩
  · simp [referenceTemplate, lit, address_text8]
  · simp [referenceLine, String.join, toString_text]

theorem fits_importLine (i : Import) : (importTemplate i).Fits (importLine i) := by
  refine ⟨[i.address.text8, " ", i.library, "!", i.name], ?_, ?_⟩
  · simp [importTemplate, lit, address_text8]
  · simp [importLine, String.join, toString_text]

theorem fits_exportLine (e : Export) : (exportTemplate e).Fits (exportLine e) := by
  refine ⟨[e.address.text8, " ", e.name], ?_, ?_⟩
  · simp [exportTemplate, lit, address_text8]
  · simp [exportLine, String.join, toString_text]

theorem fits_bytesLine (a : Address) (data : List UInt8) :
    Fits [address a, lit ": ", hexBytes data] (bytesLine a data) := by
  refine ⟨[a.text8, ": ", Hex.encode data], ?_, ?_⟩
  · simp [lit, address_text8, hexBytes_encode]
  · simp [bytesLine, String.join, toString_text]

theorem fits_typeLine (t : DataType) : (typeTemplate t).Fits (typeLine t) := by
  refine ⟨[t.name, " (", toString t.size, " bytes", if t.isPointer then " pointer" else "", ")"], ?_, ?_⟩
  · simp [typeTemplate, lit, decimal_word]
  · simp [typeLine, String.join, toString_text]

theorem fits_variableLine (x : Variable) : (variableTemplate x).Fits (variableLine x) := by
  refine ⟨[x.address.text8, " ", x.name, " [", toString x.size, " bytes, type: ",
    (x.dataType.map DataType.name).getD "-", "]"], ?_, ?_⟩
  · have htype : (x.dataType.map DataType.name).getD "-" = match x.dataType with | some t => t.name | none => "-" := by
      cases x.dataType <;> rfl
    simp [variableTemplate, lit, decimal_word, address_text8, htype]
  · simp [variableLine, String.join, toString_text]

theorem fits_address_text (a : Address) : Fits [address a] a.text :=
  ⟨[a.text], by simp [address_text], by simp [String.join]⟩

/-- All that is said of an opened snapshot. -/
theorem fits_infoLines (i : AtlasInfo) : List.Forall₂ Fits (infoTemplates i) (infoLines i) := by
  have hlabel : ∀ label value : String, Fits [lit label, lit value] (label ++ value) :=
    fun label value => (fits_lit label).append (fits_lit value)
  have hrange : Fits [lit "Address range: ", address i.minAddress, lit "-", address i.maxAddress]
      (s!"Address range: {i.minAddress.text}-{i.maxAddress.text}") := by
    refine ⟨["Address range: ", i.minAddress.text, "-", i.maxAddress.text], ?_, ?_⟩
    · simp [lit, address_text]
    · simp [String.join, toString_text]
  exact .cons (fits_lit _) (.cons (fits_lit _) (.cons (hlabel _ _) (.cons (hlabel _ _) (.cons (hlabel _ _)
    (.cons (hlabel _ _) (.cons (hlabel _ _) (.cons (hlabel _ _) (.cons hrange .nil))))))))

/-- What a report looks like in one of its forms: one document, or lines. -/
def Shown (tools : Toolkit) (json : Bool) (r : Report) (lines : List String) : Prop :=
  if json then ∃ v text, r.Documented v ∧ tools.pretty v = .ok text ∧ lines = [text]
  else List.Forall₂ Fits r.templates lines

end Report
end BinAtlas
