import BinAtlas.Proofs.Enumeration
import BinAtlas.Proofs.Opening
import BinAtlas.Proofs.Report
import BinAtlas.Proofs.Session.Info
import BinAtlas.Proofs.Toolkit

/-! What commands print. Every command asks first: where its query fails it has printed nothing, and where
it does not the whole report is printed, in the form that was asked for. -/

namespace BinAtlas

namespace Printing

open Template (lit decimal fits_lit)

variable {α : Type}

/-- The task comes to its end and has printed these lines. -/
def Prints (task : Printing Unit) (lines : List String) : Prop :=
  ∀ printed : List String, task printed = (.ok (), lines.reverse ++ printed)

/-- The task fails without a line. -/
def Fails (task : Printing Unit) : Prop := ∃ f, ∀ printed : List String, task printed = (.error f, printed)

theorem prints_println (line : String) : Prints (println line) [line] := by
  intro printed
  rfl

theorem prints_nil : Prints (pure ()) [] := by
  intro printed
  rfl

theorem Prints.andThen {x y : Printing Unit} {l l' : List String} (hx : Prints x l) (hy : Prints y l') :
    Prints (x >>= fun _ => y) (l ++ l') := by
  intro printed
  have hstep : (x >>= fun _ => y) printed = ExceptT.bindCont (fun _ => y) (x printed).1 (x printed).2 := rfl
  rw [hstep, hx printed, List.reverse_append, List.append_assoc]
  exact hy _

theorem prints_forM (line : α → String) (l : List α) : Prints (l.forM fun a => println (line a)) (l.map line) := by
  induction l with
  | nil => exact prints_nil
  | cons a as ih => exact (prints_println (line a)).andThen ih

theorem prints_listing {heading : String} {line : α → String} {title : Template} {row : α → Template}
    (htitle : title.Fits heading) (hrow : ∀ a, (row a).Fits (line a)) (l : List α) :
    ∃ lines, List.Forall₂ Template.Fits (Report.listing title row l) lines ∧
      Prints (printListing heading line l) lines := by
  have hheading : (title ++ [lit " (", decimal l.length, lit "):"]).Fits s!"{heading} ({l.length}):" := by
    have hcount : Template.Fits [lit " (", decimal l.length, lit "):"] (" (" ++ toString l.length ++ "):") :=
      ((fits_lit " (").append (fits_lit (toString l.length))).append (fits_lit "):")
    simpa only [String.append_assoc, Report.toString_text] using htitle.append hcount
  have hitem : ∀ a, Template.Fits (lit "  - " :: row a) ("  - " ++ line a) :=
    fun a => (fits_lit "  - ").append (hrow a)
  cases l with
  | nil =>
    have hnone := fits_lit "  (none)"
    exact ⟨_, .cons hheading (.cons hnone .nil), (prints_println _).andThen (prints_println _)⟩
  | cons a as =>
    refine ⟨_, .cons hheading ?_, (prints_println _).andThen (prints_forM (fun a => "  - " ++ line a) (a :: as))⟩
    simpa using ⟨hitem a, fun b _ => hitem b⟩

theorem attempt_ok_bind (a : α) (rest : α → Printing Unit) : (attempt (.ok a) >>= rest) = rest a := rfl

theorem fails_attempt (f : Failure) (rest : α → Printing Unit) : Fails (attempt (.error f) >>= rest) := by
  refine ⟨f, ?_⟩
  intro printed
  rfl

theorem fails_query (e : Error) (rest : α → Printing Unit) : Fails (query (.error e) >>= rest) :=
  fails_attempt (.query e) rest

end Printing

open Printing Template

/-- Both forms of a report. -/
theorem Report.prints_form {tools : Toolkit} (writes : tools.Writes) (json : Bool) (r : Report) {text : Printing Unit}
    (htext : ∃ lines, List.Forall₂ Fits r.templates lines ∧ Prints text lines) :
    ∃ lines, r.Shown tools json lines ∧ Prints (if json then printJson tools.pretty r.json else text) lines := by
  cases json with
  | false => exact htext
  | true =>
    obtain ⟨written, hwritten⟩ := writes r.json
    refine ⟨[written], ⟨r.json, written, r.documented_json, hwritten, rfl⟩, ?_⟩
    intro printed
    simp only [if_true, printJson, hwritten]
    rfl

theorem Report.prints_line {tools : Toolkit} (writes : tools.Writes) (json : Bool) (r : Report) {template : Template}
    {line : String} (hr : r.templates = [template]) (hline : template.Fits line) :
    ∃ lines, r.Shown tools json lines ∧
      Prints (if json then printJson tools.pretty r.json else println line) lines := by
  apply r.prints_form writes json
  rw [hr]
  exact ⟨[line], .cons hline .nil, prints_println line⟩

namespace View

variable {v : View} {start stop : Option Address} {a : Address} {d : Direction}

theorem collectFunctions_of_map {l : List FunctionEntry} (h : v.functions start stop = l.map .ok) :
    v.collectFunctions start stop = .ok (l.map v.shown) := by
  rw [collectFunctions, h, mapM_id_map_ok]

theorem collectReferences_of_map {l : List Reference} (h : v.references a d = l.map .ok) :
    v.collectReferences a d = .ok l := by
  rw [collectReferences, h, mapM_id_map_ok]

theorem collectFunctions_of_mem_error {e : Error} (h : .error e ∈ v.functions start stop) :
    ∃ f, v.collectFunctions start stop = .error f := by
  obtain ⟨e', he'⟩ := mapM_id_of_mem_error h
  exact ⟨.enumerating e', by rw [collectFunctions, he']⟩

theorem collectReferences_of_mem_error {e : Error} (h : .error e ∈ v.references a d) :
    ∃ f, v.collectReferences a d = .error f := by
  obtain ⟨e', he'⟩ := mapM_id_of_mem_error h
  exact ⟨.classifying a e', by rw [collectReferences, he']⟩

end View

namespace Atlas

variable {atlas : Atlas} {files : Files}

/-- What there is to say of an opened snapshot: its file with the digest of it, what its host tells, and the
room in the caches. -/
def account (atlas : Atlas) (tools : Toolkit) (bytes : List UInt8) : AtlasInfo :=
  let v := atlas.session.view
  { snapshot := atlas.path
    sha256 := Hex.encode (tools.digest bytes)
    host := v.name
    processor := v.processorName
    bitSize := v.bits
    bigEndian := v.bigEndian
    minAddress := v.minAddress
    maxAddress := v.maxAddress
    capacity := atlas.session.capacity }

theorem info_of_ok {bytes : List UInt8} (tools : Toolkit) (huntouched : atlas.Untouched)
    (h : files atlas.path = .ok bytes) : atlas.info tools files = .ok (atlas.account tools bytes) := by
  obtain ⟨host, image, capacity, hstart⟩ := huntouched
  have hinfo := Session.getInfo_start host image capacity
  rcases hrun : Session.getInfo (Session.start host image capacity) with ⟨i, t⟩
  rw [hrun] at hinfo
  cases hinfo
  rw [info, Files.hash, h, hstart]
  simp only [Bind.bind, Except.bind, hrun]
  rw [account, hstart]
  rfl

theorem info_of_error {fault : ReadFault} (tools : Toolkit) (h : files atlas.path = .error fault) :
    atlas.info tools files = .error (.hashing atlas.path fault) := by
  rw [info, Files.hash, h]
  rfl

end Atlas

namespace Command

/-- What a command has to report: the answer to its query as a whole. -/
inductive Answers (tools : Toolkit) (files : Files) (atlas : Atlas) : Command → Report → Prop
  | info {bytes} (h : files atlas.path = .ok bytes) :
    Answers tools files atlas .info (.info (atlas.account tools bytes))
  | functions {start stop} {l : List FunctionEntry} (h : atlas.session.view.functions start stop = l.map .ok) :
    Answers tools files atlas (.functions start stop) (.functions (l.map atlas.session.view.shown))
  | segments : Answers tools files atlas .segments (.segments atlas.session.view.segments)
  | segment {key g} (h : (Session.getSegment (SegmentKey.ofText key) atlas.session).1 = .ok g) :
    Answers tools files atlas (.segment key) (.segment g)
  | references {a d} {l : List Reference} (h : atlas.session.view.references a d = l.map .ok) :
    Answers tools files atlas (.references a d) (.references a d l)
  | imports : Answers tools files atlas .imports (.imports atlas.session.view.imports)
  | exports : Answers tools files atlas .exports (.exports atlas.session.view.exports)
  | read {a n fill data} (h : atlas.session.view.getBytes a n fill = .ok data) :
    Answers tools files atlas (.read a n fill) (.bytes a data)
  | string {a length bits data} (h : atlas.session.view.getString a length bits = .ok data) :
    Answers tools files atlas (.string a length bits) (.string a data)
  | dataType {name t} (h : atlas.session.view.getDataType name = .ok t) :
    Answers tools files atlas (.dataType name) (.dataType t)
  | variable {a v} (h : atlas.session.view.getVariable a = .ok v) :
    Answers tools files atlas (.variable a) (.variable v)
  | fileOffset {a o} (h : (Session.getFileOffset a atlas.session).1 = .ok o) :
    Answers tools files atlas (.fileOffset a) (.fileOffset a o)
  | virtualAddress {o a} (h : (Session.getVirtualAddress o atlas.session).1 = .ok a) :
    Answers tools files atlas (.virtualAddress o) (.virtualAddress o a)

/-- The query of a command fails. An enumeration fails if one of its elements does; the digest is part of
what is asked of the whole. -/
inductive QueryFails (files : Files) (atlas : Atlas) : Command → Prop
  | info {fault} (h : files atlas.path = .error fault) : QueryFails files atlas .info
  | functions {start stop e} (h : .error e ∈ atlas.session.view.functions start stop) :
    QueryFails files atlas (.functions start stop)
  | segment {key e} (h : (Session.getSegment (SegmentKey.ofText key) atlas.session).1 = .error e) :
    QueryFails files atlas (.segment key)
  | references {a d e} (h : .error e ∈ atlas.session.view.references a d) : QueryFails files atlas (.references a d)
  | read {a n fill e} (h : atlas.session.view.getBytes a n fill = .error e) : QueryFails files atlas (.read a n fill)
  | string {a length bits e} (h : atlas.session.view.getString a length bits = .error e) :
    QueryFails files atlas (.string a length bits)
  | dataType {name e} (h : atlas.session.view.getDataType name = .error e) : QueryFails files atlas (.dataType name)
  | variable {a e} (h : atlas.session.view.getVariable a = .error e) : QueryFails files atlas (.variable a)
  | fileOffset {a e} (h : (Session.getFileOffset a atlas.session).1 = .error e) :
    QueryFails files atlas (.fileOffset a)
  | virtualAddress {o e} (h : (Session.getVirtualAddress o atlas.session).1 = .error e) :
    QueryFails files atlas (.virtualAddress o)

variable {tools : Toolkit} {files : Files} {atlas : Atlas} {c : Command}

/-- A command that has its answer prints the report of it as a whole. -/
theorem prints_carryOut (writes : tools.Writes) (huntouched : atlas.Untouched) {r : Report}
    (h : c.Answers tools files atlas r) (json : Bool) :
    ∃ lines, r.Shown tools json lines ∧ Prints (carryOut tools files atlas json c) lines := by
  cases h with
  | @info bytes h =>
    rw [carryOut, Atlas.info_of_ok tools huntouched h]
    refine Report.prints_form writes json _ ⟨_, Report.fits_infoLines (atlas.account tools bytes), ?_⟩
    have hlines := prints_forM id (Report.infoLines (atlas.account tools bytes))
    rwa [List.map_id] at hlines
  | functions h =>
    rw [carryOut, View.collectFunctions_of_map h]
    exact Report.prints_form writes json _ (prints_listing (fits_lit _) Report.fits_functionLine _)
  | segments => exact Report.prints_form writes json _ (prints_listing (fits_lit _) Report.fits_segmentLine _)
  | @segment key g h =>
    rw [carryOut, h]
    exact Report.prints_line writes json _ rfl ((fits_lit _).append (Report.fits_segmentLine g))
  | @references a d l h =>
    rw [carryOut, View.collectReferences_of_map h]
    have haddress := Report.fits_address_text a
    cases d with
    | outgoing =>
      exact Report.prints_form writes json _
        (prints_listing ((fits_lit "References from ").append haddress) Report.fits_referenceLine l)
    | incoming =>
      exact Report.prints_form writes json _
        (prints_listing ((fits_lit "References to ").append haddress) Report.fits_referenceLine l)
  | imports => exact Report.prints_form writes json _ (prints_listing (fits_lit _) Report.fits_importLine _)
  | exports => exact Report.prints_form writes json _ (prints_listing (fits_lit _) Report.fits_exportLine _)
  | read h =>
    rw [carryOut, h]
    exact Report.prints_line writes json _ rfl (Report.fits_bytesLine _ _)
  | string h =>
    rw [carryOut, h]
    exact Report.prints_line writes json _ rfl (fits_lit _)
  | dataType h =>
    rw [carryOut, h]
    exact Report.prints_line writes json _ rfl (Report.fits_typeLine _)
  | «variable» h =>
    rw [carryOut, h]
    exact Report.prints_line writes json _ rfl (Report.fits_variableLine _)
  | fileOffset h =>
    rw [carryOut, h]
    exact Report.prints_line writes json _ rfl (Report.fits_address_text _)
  | virtualAddress h =>
    rw [carryOut, h]
    exact Report.prints_line writes json _ rfl (Report.fits_address_text _)

/-- A command whose query fails has printed nothing by then. -/
theorem fails_carryOut (h : c.QueryFails files atlas) (json : Bool) : Fails (carryOut tools files atlas json c) := by
  cases h with
  | info h =>
    rw [carryOut, Atlas.info_of_error tools h]
    exact fails_attempt _ _
  | functions h =>
    obtain ⟨f, hf⟩ := View.collectFunctions_of_mem_error h
    rw [carryOut, hf]
    exact fails_attempt _ _
  | references h =>
    obtain ⟨f, hf⟩ := View.collectReferences_of_mem_error h
    rw [carryOut, hf]
    exact fails_attempt _ _
  | segment h | read h | string h | dataType h | «variable» h | fileOffset h | virtualAddress h =>
    rw [carryOut, h]
    exact fails_query _ _

/-- A result is a value or an error. -/
theorem or_of_result {ε α : Type} {p q : Prop} (x : Except ε α) (hok : ∀ a, x = .ok a → p)
    (herror : ∀ e, x = .error e → q) : p ∨ q := by
  cases h : x with
  | ok a => exact .inl (hok a h)
  | error e => exact .inr (herror e h)

/-- There is no third way for a query to end. -/
theorem answers_or_queryFails (tools : Toolkit) (files : Files) (atlas : Atlas) (c : Command) :
    (∃ r, c.Answers tools files atlas r) ∨ c.QueryFails files atlas := by
  cases c with
  | info => exact or_of_result (files atlas.path) (fun _ h => ⟨_, .info h⟩) fun _ h => .info h
  | functions start stop =>
    rcases exists_map_ok_or_error (atlas.session.view.functions start stop) with ⟨l, h⟩ | ⟨e, h⟩
    · exact .inl ⟨_, .functions h⟩
    · exact .inr (.functions h)
  | references a d =>
    rcases exists_map_ok_or_error (atlas.session.view.references a d) with ⟨l, h⟩ | ⟨e, h⟩
    · exact .inl ⟨_, .references h⟩
    · exact .inr (.references h)
  | segments => exact .inl ⟨_, .segments⟩
  | imports => exact .inl ⟨_, .imports⟩
  | exports => exact .inl ⟨_, .exports⟩
  | segment key =>
    exact or_of_result (Session.getSegment (SegmentKey.ofText key) atlas.session).1
      (fun _ h => ⟨_, .segment h⟩) fun _ h => .segment h
  | read a n fill =>
    exact or_of_result (atlas.session.view.getBytes a n fill) (fun _ h => ⟨_, .read h⟩) fun _ h => .read h
  | string a length bits =>
    exact or_of_result (atlas.session.view.getString a length bits) (fun _ h => ⟨_, .string h⟩) fun _ h => .string h
  | dataType name =>
    exact or_of_result (atlas.session.view.getDataType name) (fun _ h => ⟨_, .dataType h⟩) fun _ h => .dataType h
  | «variable» a =>
    exact or_of_result (atlas.session.view.getVariable a) (fun _ h => ⟨_, .variable h⟩) fun _ h => .variable h
  | fileOffset a =>
    exact or_of_result (Session.getFileOffset a atlas.session).1 (fun _ h => ⟨_, .fileOffset h⟩)
      fun _ h => .fileOffset h
  | virtualAddress o =>
    exact or_of_result (Session.getVirtualAddress o atlas.session).1 (fun _ h => ⟨_, .virtualAddress h⟩)
      fun _ h => .virtualAddress h

end Command
end BinAtlas
