import BinAtlas.Proofs.Abridged
import BinAtlas.Proofs.Hex
import BinAtlas.Snapshot.Decode
import BinAtlas.Snapshot.Encode

/-! A snapshot survives being written as a document and read back, with every field written or with any
of those left out that hold what stands for them. -/

namespace BinAtlas

open Document (word? word32? byte? flag? text? list? option?)
open Json (read_then reads_same fields?_object rowsAbridged_listOf)

/-! For each record: what stands for the fields that may be left out, and that it is read from whatever
is left of its document. -/

namespace Region

theorem bytes?_text (bytes : Array UInt8) : bytes? (Json.text (Hex.encode bytes.toList)) = some bytes := by
  change (Hex.decode? (Hex.encode bytes.toList)).bind (fun bs => some bs.toArray) = some bytes
  rw [Hex.decode?_encode, Option.bind_some, Array.toArray_toList]

theorem names_nodup : names.Nodup := by decide

theorem decode?_of_abridged (r : Region) (d : Json) (h : Json.Abridged [] (fun _ => Eq) r.encode d) :
    decode? d = some r := by
  obtain ⟨g, rfl, hg⟩ := h.object
  have hfields : Document.fields? names (Json.object g) = some g := fields?_object hg names_nodup
  have hstart := hg.required names_nodup "start" rfl (reads_same (Json.word?_word r.start)) rfl
  have hbytes := hg.required names_nodup "bytes" rfl (reads_same (bytes?_text r.bytes)) rfl
  exact read_then hfields (read_then hstart (read_then hbytes rfl))

end Region

namespace FileRegion

theorem names_nodup : names.Nodup := by decide

theorem decode?_of_abridged (r : FileRegion) (d : Json) (h : Json.Abridged [] (fun _ => Eq) r.encode d) :
    decode? d = some r := by
  obtain ⟨g, rfl, hg⟩ := h.object
  have hfields : Document.fields? names (Json.object g) = some g := fields?_object hg names_nodup
  have haddress := hg.required names_nodup "address" rfl (reads_same (Json.word?_word r.address)) rfl
  have hoffset := hg.required names_nodup "offset" rfl (reads_same (Json.word?_word r.offset)) rfl
  have hsize := hg.required names_nodup "size" rfl (reads_same (Json.word?_word r.size)) rfl
  exact read_then hfields (read_then haddress (read_then hoffset (read_then hsize rfl)))

end FileRegion

namespace FunctionEntry

def missing : Fields Json := [("name", .null)]

theorem names_nodup : names.Nodup := by decide

theorem decode?_of_abridged (f : FunctionEntry) (d : Json) (h : Json.Abridged missing (fun _ => Eq) f.encode d) :
    decode? d = some f := by
  obtain ⟨g, rfl, hg⟩ := h.object
  have hfields : Document.fields? names (Json.object g) = some g := fields?_object hg names_nodup
  have hstart := hg.required names_nodup "start" rfl (reads_same (Json.word?_word f.start)) rfl
  have hstop := hg.required names_nodup "end" rfl (reads_same (Json.word?_word f.stop)) rfl
  have hname := hg.orElse names_nodup "name" rfl (reads_same (Json.option?_text f.name)) rfl rfl
  exact read_then hfields (read_then hstart (read_then hstop (read_then hname rfl)))

end FunctionEntry

namespace Parameter

theorem names_nodup : names.Nodup := by decide

theorem decode?_of_abridged (p : Parameter) (d : Json) (h : Json.Abridged [] (fun _ => Eq) p.encode d) :
    decode? d = some p := by
  obtain ⟨g, rfl, hg⟩ := h.object
  have hfields : Document.fields? names (Json.object g) = some g := fields?_object hg names_nodup
  have hname := hg.required names_nodup "name" rfl (reads_same (Json.text?_text p.name)) rfl
  have htype := hg.required names_nodup "type" rfl (reads_same (Json.text?_text p.type)) rfl
  exact read_then hfields (read_then hname (read_then htype rfl))

theorem decode?_encode (p : Parameter) : decode? p.encode = some p :=
  decode?_of_abridged p _ ⟨_, _, rfl, rfl, .refl fun _ _ => rfl⟩

end Parameter

namespace Signature

def missing : Fields Json := [("return_type", .text ""), ("calling_convention", .text ""), ("parameters", .list [])]

theorem names_nodup : names.Nodup := by decide

theorem decode?_of_abridged (s : Signature) (d : Json) (h : Json.Abridged missing (fun _ => Eq) s.encode d) :
    decode? d = some s := by
  obtain ⟨g, rfl, hg⟩ := h.object
  have hfields : Document.fields? names (Json.object g) = some g := fields?_object hg names_nodup
  have haddress := hg.required names_nodup "address" rfl (reads_same (Json.word?_word s.address)) rfl
  have hdeclaration := hg.required names_nodup "declaration" rfl (reads_same (Json.text?_text s.declaration)) rfl
  have hreturn := hg.orElse names_nodup "return_type" rfl (reads_same (Json.text?_text s.returnType)) rfl rfl
  have hconvention :=
    hg.orElse names_nodup "calling_convention" rfl (reads_same (Json.text?_text s.callingConvention)) rfl rfl
  have hrows := Json.list?_listOf Parameter.decode?_encode s.parameters
  have hparameters : g.orElse "parameters" (list? Parameter.decode?) [] = some s.parameters :=
    hg.orElse names_nodup "parameters" rfl (reads_same hrows) rfl rfl
  exact read_then hfields (read_then haddress (read_then hdeclaration (read_then hreturn (read_then hconvention
    (read_then hparameters rfl)))))

end Signature

namespace SegmentEntry

def missing : Fields Json := [("bitness", .null), ("permissions", .text "rwx")]

theorem names_nodup : names.Nodup := by decide

theorem decode?_of_abridged (s : SegmentEntry) (d : Json) (h : Json.Abridged missing (fun _ => Eq) s.encode d) :
    decode? d = some s := by
  obtain ⟨g, rfl, hg⟩ := h.object
  have hfields : Document.fields? names (Json.object g) = some g := fields?_object hg names_nodup
  have hname := hg.required names_nodup "name" rfl (reads_same (Json.text?_text s.name)) rfl
  have hstart := hg.required names_nodup "start" rfl (reads_same (Json.word?_word s.start)) rfl
  have hstop := hg.required names_nodup "end" rfl (reads_same (Json.word?_word s.stop)) rfl
  have hbitness := hg.orElse names_nodup "bitness" rfl (reads_same (Json.option?_word32 s.bitness)) rfl rfl
  have hpermissions := hg.orElse names_nodup "permissions" rfl (reads_same (Json.text?_text s.permissions)) rfl rfl
  exact read_then hfields (read_then hname (read_then hstart (read_then hstop (read_then hbitness (read_then
    hpermissions rfl)))))

end SegmentEntry

namespace Item

def missing : Fields Json :=
  [("size", .nat 1), ("code", .bool false), ("name", .null), ("type", .null), ("string_width", .null)]

theorem names_nodup : names.Nodup := by decide

theorem decode?_of_abridged (i : Item) (d : Json) (h : Json.Abridged missing (fun _ => Eq) i.encode d) :
    decode? d = some i := by
  obtain ⟨g, rfl, hg⟩ := h.object
  have hfields : Document.fields? names (Json.object g) = some g := fields?_object hg names_nodup
  have haddress := hg.required names_nodup "address" rfl (reads_same (Json.word?_word i.address)) rfl
  have hsize : g.orElse "size" word? 1 = some i.size :=
    hg.orElse names_nodup "size" rfl (reads_same (Json.word?_word i.size)) rfl rfl
  have hisCode := hg.orElse names_nodup "code" rfl (reads_same (Json.flag?_bool i.isCode)) rfl rfl
  have hname := hg.orElse names_nodup "name" rfl (reads_same (Json.option?_text i.name)) rfl rfl
  have htype := hg.orElse names_nodup "type" rfl (reads_same (Json.option?_text i.type)) rfl rfl
  have hstringWidth := hg.orElse names_nodup "string_width" rfl (reads_same (Json.option?_word32 i.stringWidth)) rfl rfl
  exact read_then hfields (read_then haddress (read_then hsize (read_then hisCode (read_then hname (read_then htype
    (read_then hstringWidth rfl))))))

end Item

namespace Edge

def missing : Fields Json := [("code", .bool false)]

theorem names_nodup : names.Nodup := by decide

theorem decode?_of_abridged (e : Edge) (d : Json) (h : Json.Abridged missing (fun _ => Eq) e.encode d) :
    decode? d = some e := by
  obtain ⟨g, rfl, hg⟩ := h.object
  have hfields : Document.fields? names (Json.object g) = some g := fields?_object hg names_nodup
  have hsource := hg.required names_nodup "from" rfl (reads_same (Json.word?_word e.source)) rfl
  have htarget := hg.required names_nodup "to" rfl (reads_same (Json.word?_word e.target)) rfl
  have hkind := hg.required names_nodup "type" rfl (reads_same (Json.byte?_nat e.kind)) rfl
  have hisCode := hg.orElse names_nodup "code" rfl (reads_same (Json.flag?_bool e.isCode)) rfl rfl
  exact read_then hfields (read_then hsource (read_then htarget (read_then hkind (read_then hisCode rfl))))

end Edge

namespace TypeEntry

theorem names_nodup : names.Nodup := by decide

theorem decode?_of_abridged (t : TypeEntry) (d : Json) (h : Json.Abridged [] (fun _ => Eq) t.encode d) :
    decode? d = some t := by
  obtain ⟨g, rfl, hg⟩ := h.object
  have hfields : Document.fields? names (Json.object g) = some g := fields?_object hg names_nodup
  have hname := hg.required names_nodup "name" rfl (reads_same (Json.text?_text t.name)) rfl
  have hsize := hg.required names_nodup "size" rfl (reads_same (Json.word?_word t.size)) rfl
  exact read_then hfields (read_then hname (read_then hsize rfl))

end TypeEntry

namespace Register

theorem names_nodup : names.Nodup := by decide

theorem decode?_of_abridged (r : Register) (d : Json) (h : Json.Abridged [] (fun _ => Eq) r.encode d) :
    decode? d = some r := by
  obtain ⟨g, rfl, hg⟩ := h.object
  have hfields : Document.fields? names (Json.object g) = some g := fields?_object hg names_nodup
  have hname := hg.required names_nodup "name" rfl (reads_same (Json.text?_text r.name)) rfl
  have hnumber := hg.required names_nodup "number" rfl (reads_same (Json.word32?_word32 r.number)) rfl
  have hsize := hg.required names_nodup "size" rfl (reads_same (Json.word?_word r.size)) rfl
  exact read_then hfields (read_then hname (read_then hnumber (read_then hsize rfl)))

end Register

namespace Import

def missing : Fields Json := [("namespace", .text "")]

theorem names_nodup : names.Nodup := by decide

theorem decode?_of_abridged (i : Import) (d : Json) (h : Json.Abridged missing (fun _ => Eq) i.encode d) :
    decode? d = some i := by
  obtain ⟨g, rfl, hg⟩ := h.object
  have hfields : Document.fields? names (Json.object g) = some g := fields?_object hg names_nodup
  have haddress := hg.required names_nodup "address" rfl (reads_same (Json.word?_word i.address)) rfl
  have hname := hg.required names_nodup "name" rfl (reads_same (Json.text?_text i.name)) rfl
  have hlibrary := hg.orElse names_nodup "namespace" rfl (reads_same (Json.text?_text i.library)) rfl rfl
  exact read_then hfields (read_then haddress (read_then hname (read_then hlibrary rfl)))

end Import

namespace ExportEntry

theorem names_nodup : names.Nodup := by decide

theorem decode?_of_abridged (e : ExportEntry) (d : Json) (h : Json.Abridged [] (fun _ => Eq) e.encode d) :
    decode? d = some e := by
  obtain ⟨g, rfl, hg⟩ := h.object
  have hfields : Document.fields? names (Json.object g) = some g := fields?_object hg names_nodup
  have hordinal := hg.required names_nodup "ordinal" rfl (reads_same (Json.word?_word e.ordinal)) rfl
  have haddress := hg.required names_nodup "address" rfl (reads_same (Json.word?_word e.address)) rfl
  have hname := hg.required names_nodup "name" rfl (reads_same (Json.text?_text e.name)) rfl
  exact read_then hfields (read_then hordinal (read_then haddress (read_then hname rfl)))

end ExportEntry

namespace Snapshot

/-- Every field of a snapshot may be left out; the empty snapshot says what stands for it. -/
def missing : Fields Json :=
  match ({} : Snapshot).encode with
  | .object f => f
  | _ => []

/-- The tables, with what stands for the fields of their rows. -/
def rowsMissing : List (String × Fields Json) :=
  [("memory", []), ("file_regions", []), ("functions", FunctionEntry.missing), ("signatures", Signature.missing),
    ("segments", SegmentEntry.missing), ("items", Item.missing), ("xrefs", Edge.missing), ("types", []),
    ("registers", []), ("imports", Import.missing), ("exports", [])]

/-- Of a table the rows may be written shorter; any other value is written as it is. -/
def ValueAbridged (name : String) (d d' : Json) : Prop :=
  match rowsMissing.lookup name with
  | some missing => Json.RowsAbridged (Json.Abridged missing fun _ => Eq) d d'
  | none => d = d'

/-- The second document is that of a snapshot with any fields left out, its own or those of its rows, which
hold what stands for them. -/
def Abridged (d d' : Json) : Prop := Json.Abridged missing ValueAbridged d d'

theorem names_nodup : names.Nodup := by decide

theorem decode?_of_abridged (s : Snapshot) (d : Json) (h : Abridged s.encode d) : decode? d = some s := by
  obtain ⟨g, rfl, hg⟩ := Json.Abridged.object h
  have hfields : Document.fields? names (Json.object g) = some g := fields?_object hg names_nodup
  have hsdkVersion : g.orElse "sdk_version" word32? 900 = some s.sdkVersion :=
    hg.orElse names_nodup "sdk_version" rfl (reads_same (Json.word32?_word32 s.sdkVersion)) rfl rfl
  have hbitness : g.orElse "bitness" word32? 64 = some s.bitness :=
    hg.orElse names_nodup "bitness" rfl (reads_same (Json.word32?_word32 s.bitness)) rfl rfl
  have hbigEndian := hg.orElse names_nodup "big_endian" rfl (reads_same (Json.flag?_bool s.bigEndian)) rfl rfl
  have hprocessor := hg.orElse names_nodup "processor" rfl (reads_same (Json.text?_text s.processor)) rfl rfl
  have hminAddress := hg.orElse names_nodup "min_address" rfl (reads_same (Json.option?_word s.minAddress)) rfl rfl
  have hmaxAddress := hg.orElse names_nodup "max_address" rfl (reads_same (Json.option?_word s.maxAddress)) rfl rfl
  have hmemory := hg.table names_nodup "memory" rfl rfl Region.decode?_of_abridged rfl
  have hfileRegions := hg.table names_nodup "file_regions" rfl rfl FileRegion.decode?_of_abridged rfl
  have hfunctions := hg.table names_nodup "functions" rfl rfl FunctionEntry.decode?_of_abridged rfl
  have hsignatures := hg.table names_nodup "signatures" rfl rfl Signature.decode?_of_abridged rfl
  have hsegments := hg.table names_nodup "segments" rfl rfl SegmentEntry.decode?_of_abridged rfl
  have hitems := hg.table names_nodup "items" rfl rfl Item.decode?_of_abridged rfl
  have hedges := hg.table names_nodup "xrefs" rfl rfl Edge.decode?_of_abridged rfl
  have htypes := hg.table names_nodup "types" rfl rfl TypeEntry.decode?_of_abridged rfl
  have hregisters := hg.table names_nodup "registers" rfl rfl Register.decode?_of_abridged rfl
  have himports := hg.table names_nodup "imports" rfl rfl Import.decode?_of_abridged rfl
  have hexports := hg.table names_nodup "exports" rfl rfl ExportEntry.decode?_of_abridged rfl
  exact read_then hfields (read_then hsdkVersion (read_then hbitness (read_then hbigEndian (read_then hprocessor
    (read_then hminAddress (read_then hmaxAddress (read_then hmemory (read_then hfileRegions (read_then hfunctions
    (read_then hsignatures (read_then hsegments (read_then hitems (read_then hedges (read_then htypes (read_then
    hregisters (read_then himports (read_then hexports rfl)))))))))))))))))

theorem abridged_encode (s : Snapshot) : Abridged s.encode s.encode := by
  refine ⟨_, _, rfl, rfl, .refl ?_⟩
  simp only [List.forall_mem_cons]
  refine ⟨rfl, rfl, rfl, rfl, rfl, rfl, ?memory, ?fileRegions, ?functions, ?signatures, ?segments, ?items, ?edges,
    ?types, ?registers, ?imports, ?exports, List.forall_mem_nil _⟩
  all_goals exact rowsAbridged_listOf _

/-- A snapshot is read back from the document it is written as, and from any that leaves out fields which hold what
stands for them. -/
theorem round_trip :
    (∀ s : Snapshot, decode? s.encode = some s) ∧
      (∀ d : Json, (decode? d).bind (fun s => decode? s.encode) = decode? d) ∧
        ∀ (s : Snapshot) (d : Json), Abridged s.encode d → decode? d = some s := by
  have hencode : ∀ s : Snapshot, decode? s.encode = some s := fun s => decode?_of_abridged s _ (abridged_encode s)
  refine ⟨hencode, fun d => ?_, decode?_of_abridged⟩
  cases decode? d with
  | none => rfl
  | some s => exact hencode s

/-- One byte of code, in a document that leaves out all it can. -/
theorem round_trip_one_byte :
    let s : Snapshot := { memory := [⟨0x1000, #[0xC3]⟩], items := [⟨0x1000, 1, true, some "ret", none, none⟩] }
    let d : Json := .object [("memory", .list [.object [("start", .word 0x1000), ("bytes", .text "c3")]]),
      ("items", .list [.object [("address", .word 0x1000), ("code", .bool true), ("name", .text "ret")]])]
    Abridged s.encode d ∧ decode? d = some s := by
  intro s d
  have hd : Abridged s.encode d := by
    refine ⟨_, _, rfl, rfl, .drop rfl (.drop rfl (.drop rfl (.drop rfl (.drop rfl (.drop rfl (.keep ?memory (.drop rfl
      (.drop rfl (.drop rfl (.drop rfl (.keep ?items (.drop rfl (.drop rfl (.drop rfl (.drop rfl (.drop rfl
        .nil))))))))))))))))⟩
    case memory =>
      exact ⟨_, _, rfl, rfl, .cons ⟨_, _, rfl, rfl, .keep rfl (.keep rfl .nil)⟩ .nil⟩
    case items =>
      exact ⟨_, _, rfl, rfl, .cons ⟨_, _, rfl, rfl, .keep rfl (.drop rfl (.keep rfl (.keep rfl (.drop rfl (.drop rfl
        .nil)))))⟩ .nil⟩
  exact ⟨hd, round_trip.2.2 s d hd⟩

end Snapshot

end BinAtlas
