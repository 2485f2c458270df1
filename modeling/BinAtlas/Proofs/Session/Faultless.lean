import BinAtlas.Proofs.Checked
import BinAtlas.Proofs.Segments
import BinAtlas.Proofs.Session.ByteStore
import BinAtlas.Proofs.Session.Memoization
import BinAtlas.Proofs.Window
import BinAtlas.Proofs.Word

/-! No question to a session over an accepted snapshot, and no step on a window, ends in a fault. Most sums and
differences stand behind a test of their own; those in the file regions and the sizes of the segments rely
on what loading refuses. -/

namespace BinAtlas

open Address

namespace Checked

section Tables

variable (t : Snapshot)

def itemAt (a : Address) : Checked (Option Item) := t.items.findM? fun i => within i.address a i.extent.toNat

def stringKind (a : Address) : Checked StringKind := do
  return (((← itemAt t a).bind (·.stringWidth)).bind StringKind.ofBits?).getD .narrow

def itemType (a : Address) : Checked (Option HostType) := do
  return (← itemAt t a).bind fun item => item.type.map fun name => (t.namedType name).getD (.named name item.size)

def itemHead (a : Address) : Checked Address := do
  return ((← itemAt t a).map (·.address)).getD a

def itemEnd (a : Address) : Checked Address := do
  return ((← itemAt t a).bind Item.stop?).getD (saturatingAdd a 1)

def isCode (a : Address) : Checked Bool := do
  return (← itemAt t a).any (·.isCode)

/-- The size of a line or a variable. -/
def sizeAt (a : Address) : Checked UInt64 := do
  return saturatingSub (← itemEnd t a) a

def addressOfOffset (o : UInt64) : Checked Address := do
  match ← t.fileRegions.findM? fun r => within r.offset o r.size.toNat with
  | some r => add r.address (← sub o r.offset)
  | none => return bad

def offsetOfAddress (a : Address) : Checked Int := do
  match ← t.fileRegions.findM? fun r => within r.address a r.size.toNat with
  | some r =>
    let o ← add r.offset (← sub a r.address)
    return if o.toNat < Snapshot.signBit then o.toNat else -1
  | none => return -1

def segmentSize (g : Segment) : Checked UInt64 := sub g.stop g.start

def segmentData (m : Image) (g : Segment) : Checked (Except Error (List UInt8)) := do
  return .ok (← read m g.start (← segmentSize g).toNat 0)

/-- The width that is asked for, or that of the item. -/
def kindOf (a : Address) : Option UInt32 → Checked (Except Error StringKind)
  | none => do return .ok (← stringKind t a)
  | some b =>
    match StringKind.ofBits? b with
    | some kind => return .ok kind
    | none => return .error (.invalidInput (.bitWidth b))

def lengthOf (m : Image) (a : Address) (kind : StringKind) : Option UInt64 → Checked UInt64
  | none => stringLength m t.bigEndian a kind
  | some n => return n

def contentsOf (m : Image) (a : Address) (length : Option UInt64) (kind : StringKind) :
    Checked (Except Error (List UInt8)) := do
  match ← stringContents m t.bigEndian a (← lengthOf t m a kind length) kind with
  | some bytes => return .ok bytes
  | none => return .error (.notFound (.string a))

def getString (m : Image) (a : Address) (length : Option UInt64) (bits : Option UInt32) :
    Checked (Except Error (List UInt8)) := do
  match ← kindOf t a bits with
  | .error e => return .error e
  | .ok kind => contentsOf t m a length kind

end Tables

section Windows

variable (w : Window)

/-- The first bytes of a buffer, as a slice. -/
def front (buffer : List UInt8) (n : Nat) : Checked (List UInt8) :=
  if n ≤ buffer.length then .ok (buffer.take n) else .error .index

/-- Bytes copied over the first ones of a buffer, of which there must be as many. -/
def overwrite (buffer : List UInt8) (n : Nat) (bytes : List UInt8) : Checked (List UInt8) :=
  if n ≤ buffer.length ∧ bytes.length = n then .ok (bytes ++ buffer.drop n) else .error .index

def windowSize : Checked UInt64 := sub w.stop w.start

def remaining : Checked Nat := do
  return (saturatingSub (← windowSize w) w.position).toNat

def advance (n : Nat) : Checked Window := do
  return { w with position := ← add w.position n.toUInt64 }

/-- The buffer after the read, and the window. -/
def readInto (m : Image) (buffer : List UInt8) : Checked (List UInt8 × Window) := do
  let count := min buffer.length (← remaining w)
  if count = 0 then return (buffer, w)
  let bytes ← read m w.address count 0
  return (← overwrite buffer count bytes, ← advance w count)

def writeFrom (m : Image) (data : List UInt8) : Checked (Except WindowError Nat × Window × Image) := do
  let count := min data.length (← remaining w)
  if count = 0 then return (.ok 0, w, m)
  match ← patch m w.address (← front data count) with
  | (true, m) => return (.ok count, ← advance w count, m)
  | (false, m) => return (.error (.database (.notFound (.written count w.address))), w, m)

def seek : SeekTarget → Checked (Except WindowError UInt64 × Window)
  | .start offset => return (.ok offset, { w with position := offset })
  | .stop distance => do return Window.seek.moveTo w (shift? (← windowSize w) distance)
  | .current distance => return Window.seek.moveTo w (shift? w.position distance)

end Windows

section Tables

variable (t : Snapshot)

theorem findWithin_eq_ok {α : Type} (start size : α → UInt64) (l : List α) (a : UInt64) :
    l.findM? (fun x => within (start x) a (size x).toNat) =
      .ok (l.find? fun x => start x ≤ a && a - start x < size x) := by
  refine findM?_eq_ok (fun x => ?_) l
  simp only [within_eq_ok, UInt64.lt_iff_toNat_lt]

theorem itemAt_eq_ok (a : Address) : itemAt t a = .ok (t.itemAt a) := findWithin_eq_ok Item.address Item.extent t.items a

theorem itemEnd_eq_ok (a : Address) : itemEnd t a = .ok (t.itemEnd a) := by
  rw [itemEnd, itemAt_eq_ok]
  rfl

theorem itemType_eq_ok (a : Address) : itemType t a = .ok (t.itemType a) := by
  rw [itemType, itemAt_eq_ok, Snapshot.itemType]
  cases t.itemAt a with
  | none => rfl
  | some item =>
    cases htype : item.type with
    | none => simp [htype, ok_bind, pure_eq_ok]
    | some name => simp [htype, ok_bind, pure_eq_ok]

variable {t}

/-- A word inside a range lies as far from another start as the range reaches there, at most. -/
theorem shifted_eq_ok {start size x base : UInt64} (hin : (start ≤ x && x - start < size) = true)
    (hfits : base.toNat + size.toNat < UInt64.size) :
    sub x start = .ok (x - start) ∧ add base (x - start) = .ok (base + (x - start)) := by
  obtain ⟨hle, hlt⟩ := Bool.and_eq_true_iff.1 hin
  have hlt := UInt64.lt_iff_toNat_lt.1 (of_decide_eq_true hlt)
  exact ⟨sub_eq_ok (of_decide_eq_true hle), add_eq_ok (by omega)⟩

theorem addressOfOffset_eq_ok (h : ∀ r ∈ t.fileRegions, r.address.toNat + r.size.toNat < UInt64.size) (o : UInt64) :
    addressOfOffset t o = .ok (t.addressOfOffset o) := by
  have hfind : t.fileRegions.findM? (fun r => within r.offset o r.size.toNat) =
      .ok (t.fileRegions.find? (·.coversOffset o)) := findWithin_eq_ok _ _ _ o
  rw [addressOfOffset, hfind, ok_bind, Snapshot.addressOfOffset]
  cases hr : t.fileRegions.find? (·.coversOffset o) with
  | none => rfl
  | some r =>
    have hin : r.coversOffset o = true := by simpa using List.find?_some hr
    obtain ⟨hsub, hadd⟩ := shifted_eq_ok hin (h r (List.mem_of_find?_eq_some hr))
    simp only [hsub, hadd, ok_bind]

theorem offsetOfAddress_eq_ok (h : ∀ r ∈ t.fileRegions, r.offset.toNat + r.size.toNat < UInt64.size) (a : Address) :
    offsetOfAddress t a = .ok (t.offsetOfAddress a) := by
  have hfind : t.fileRegions.findM? (fun r => within r.address a r.size.toNat) =
      .ok (t.fileRegions.find? (·.coversAddress a)) := findWithin_eq_ok _ _ _ a
  rw [offsetOfAddress, hfind, ok_bind, Snapshot.offsetOfAddress]
  cases hr : t.fileRegions.find? (·.coversAddress a) with
  | none => rfl
  | some r =>
    have hin : r.coversAddress a = true := by simpa using List.find?_some hr
    obtain ⟨hsub, hadd⟩ := shifted_eq_ok hin (h r (List.mem_of_find?_eq_some hr))
    simp only [hsub, hadd, ok_bind, pure_eq_ok]

end Tables

section Windows

variable (w : Window)

theorem remaining_eq_ok : remaining w = .ok w.remaining := by
  rw [remaining, windowSize, sub_eq_ok w.start_le_stop]
  rfl

/-- What is left reaches to the end of the range, and not past the last word. -/
theorem advance_eq_ok {n : Nat} (h : n ≤ w.remaining) (hpos : n ≠ 0) : advance w n = .ok (w.advance n) := by
  have hstop := toNat_lt_size w.stop
  rw [w.remaining_eq, Window.rest] at h
  have hn : n.toUInt64.toNat = n := toNat_toUInt64 (by omega)
  rw [advance, add_eq_ok (by omega)]
  rfl

theorem readInto_eq_ok (v : View) (m : Image) (hbytes : v.bytes = m.read) (buffer : List UInt8) :
    ∃ bytes, (w.read v buffer.length).1 = .ok bytes ∧
      readInto w m buffer = .ok (bytes ++ buffer.drop bytes.length, (w.read v buffer.length).2) := by
  have hcount : min buffer.length w.remaining ≤ w.remaining := Nat.min_le_right _ _
  simp only [readInto, remaining_eq_ok, ok_bind, Window.read]
  by_cases hzero : min buffer.length w.remaining = 0
  · simp only [if_pos hzero]
    exact ⟨[], rfl, rfl⟩
  · have hlength := m.length_read w.address (min buffer.length w.remaining) 0
    have hover : overwrite buffer (min buffer.length w.remaining)
        (m.read w.address (min buffer.length w.remaining) 0) =
        .ok (m.read w.address (min buffer.length w.remaining) 0 ++ buffer.drop (min buffer.length w.remaining)) :=
      if_pos ⟨Nat.min_le_left _ _, hlength⟩
    simp only [if_neg hzero, View.getBytes, hbytes, read_eq_ok, hover, advance_eq_ok w hcount hzero, ok_bind]
    refine ⟨_, rfl, ?_⟩
    rw [hlength, pure_eq_ok]

theorem writeFrom_eq_ok (h : Host Image) (hpatch : h.patch = Image.patch) (m : Image) (data : List UInt8) :
    writeFrom w m data = .ok (w.write h m data) := by
  have hcount : min data.length w.remaining ≤ w.remaining := Nat.min_le_right _ _
  simp only [writeFrom, remaining_eq_ok, ok_bind, Window.write]
  by_cases hzero : min data.length w.remaining = 0
  · simp only [if_pos hzero, pure_eq_ok]
  · have hfront : front data (min data.length w.remaining) = .ok (data.take (min data.length w.remaining)) :=
      if_pos (Nat.min_le_left _ _)
    simp only [if_neg hzero, hfront, patch_eq_ok, advance_eq_ok w hcount hzero, hpatch, ok_bind]
    cases m.patch w.address (data.take (min data.length w.remaining)) with
    | mk done m' => cases done <;> rfl

theorem seek_eq_ok (target : SeekTarget) : seek w target = .ok (w.seek target) := by
  cases target with
  | start offset => rfl
  | stop distance =>
    rw [seek, windowSize, sub_eq_ok w.start_le_stop]
    rfl
  | current distance => rfl

end Windows

section Strings

variable (t : Snapshot) (m : Image) (a : Address)

theorem stringKind_eq_ok : stringKind t a = .ok ((t.view m).stringKind a) := by
  rw [stringKind, itemAt_eq_ok]
  rfl

theorem lengthOf_eq_ok (kind : StringKind) (length : Option UInt64) :
    ∃ n, lengthOf t m a kind length = .ok n ∧
      n.toNat = (length.map (·.toNat)).getD ((t.view m).stringLength a kind) := by
  cases length with
  | none => exact stringLength_eq_ok m t.bigEndian a kind
  | some n => exact ⟨n, rfl, rfl⟩

theorem contentsOf_eq_ok (length : Option UInt64) (kind : StringKind) :
    contentsOf t m a length kind =
      .ok (match (t.view m).stringContents a ((length.map (·.toNat)).getD ((t.view m).stringLength a kind)) kind with
        | some bytes => .ok bytes
        | none => .error (.notFound (.string a))) := by
  obtain ⟨n, hn, hlength⟩ := lengthOf_eq_ok t m a kind length
  rw [contentsOf, hn, ok_bind, stringContents_eq_ok, ok_bind, hlength]
  change _ = Except.ok (match m.stringContents t.bigEndian a _ kind with
    | some bytes => _
    | none => _)
  cases m.stringContents t.bigEndian a ((length.map (·.toNat)).getD ((t.view m).stringLength a kind)) kind <;> rfl

theorem getString_eq_ok (length : Option UInt64) (bits : Option UInt32) :
    getString t m a length bits = .ok ((t.view m).getString a (length.map (·.toNat)) bits) := by
  cases bits with
  | none =>
    rw [getString, kindOf, stringKind_eq_ok t m, ok_bind, pure_eq_ok, ok_bind]
    exact contentsOf_eq_ok t m a length _
  | some b =>
    simp only [getString, kindOf, View.getString]
    cases StringKind.ofBits? b with
    | none => rfl
    | some kind => exact contentsOf_eq_ok t m a length kind

end Strings

end Checked

namespace Snapshot

theorem mem_segments_of_segment {t : Snapshot} {key : SegmentKey} {g : Segment} (h : t.lookups.segment key = .ok g) :
    ∃ e ∈ t.segments, g = t.segmentOf e := by
  rw [segment_lookups] at h
  obtain ⟨e, he, rfl⟩ := List.mem_map.1 (SegmentKey.mem_of_choose h)
  exact ⟨e, he, rfl⟩

theorem mem_segments_of_listed {t : Snapshot} {m : Image} {g : Segment} (h : g ∈ (t.view m).segments) :
    ∃ e ∈ t.segments, g = t.segmentOf e := by
  rw [segments_view] at h
  obtain ⟨e, he, rfl⟩ := List.mem_map.1 h
  exact ⟨e, he, rfl⟩

end Snapshot

namespace Session

/-- All that computes with addresses, for any arguments: the primitives of the host with tables `t`, the queries and
the steps on windows come to the answers of the session without a fault. What is not named here only compares
and looks up, or puts together what is. -/
structure Faultless (t : Snapshot) (s : Session Image) : Prop where
  byte : ∀ a, (Checked.byte? s.memory a).map (·.getD 0) = .ok (s.view.byte a)
  word : ∀ a, (Checked.readNumber s.memory t.bigEndian a 2).map (·.toUInt16) = .ok (s.view.word a)
  dword : ∀ a, (Checked.readNumber s.memory t.bigEndian a 4).map (·.toUInt32) = .ok (s.view.dword a)
  qword : ∀ a, (Checked.readNumber s.memory t.bigEndian a 8).map (·.toUInt64) = .ok (s.view.qword a)
  loaded : ∀ a n, Checked.loaded s.memory a n = .ok (s.view.loaded a n)
  bytes : ∀ a n fill, Checked.read s.memory a n fill = .ok (s.view.bytes a n fill)
  patch : ∀ a data, Checked.patch s.memory a data = .ok (s.host.patch s.memory a data)
  addressOfOffset : ∀ o, Checked.addressOfOffset t o = .ok (s.host.lookups.addressOfOffset o)
  offsetOfAddress : ∀ a, Checked.offsetOfAddress t a = .ok (s.host.lookups.offsetOfAddress a)
  itemType : ∀ a, Checked.itemType t a = .ok (s.view.itemType a)
  itemHead : ∀ a, Checked.itemHead t a = .ok (s.view.itemHead a)
  itemEnd : ∀ a, Checked.itemEnd t a = .ok (s.view.itemEnd a)
  isCode : ∀ a, Checked.isCode t a = .ok (s.view.isCode a)
  stringKind : ∀ a, Checked.stringKind t a = .ok (s.view.stringKind a)
  stringLength : ∀ a kind, ∃ length : UInt64,
    Checked.stringLength s.memory t.bigEndian a kind = .ok length ∧ length.toNat = s.view.stringLength a kind
  stringContents : ∀ a (length : UInt64) kind,
    Checked.stringContents s.memory t.bigEndian a length kind = .ok (s.view.stringContents a length.toNat kind)
  string : ∀ a (length : Option UInt64) bits,
    Checked.getString t s.memory a length bits = .ok (s.view.getString a (length.map (·.toNat)) bits)
  /-- Lines and variables. -/
  size : ∀ a, Checked.sizeAt t a = .ok (s.view.sizeAt a)
  /-- Segments that the session gives, by key or in its list. -/
  segment : ∀ g, (∃ key, (perform (.getSegment key) s).1 = .segment (.ok g)) ∨ g ∈ s.view.segments →
    Checked.segmentSize g = .ok g.size ∧ Checked.segmentData s.memory g = .ok (s.view.segmentData g)
  windowSize : ∀ w, Checked.windowSize w = .ok w.size
  readWindow : ∀ (w : Window) (buffer : List UInt8), ∃ bytes, (w.read s.view buffer.length).1 = .ok bytes ∧
    Checked.readInto w s.memory buffer = .ok (bytes ++ buffer.drop bytes.length, (w.read s.view buffer.length).2)
  writeWindow : ∀ (w : Window) (data : List UInt8),
    Checked.writeFrom w s.memory data = .ok (w.write s.host s.memory data)
  seekWindow : ∀ w target, Checked.seek w target = .ok (w.seek target)

/-- It is enough to know the host, for the arithmetic that stands behind tests, and what loading refuses. -/
theorem faultless_of_host {t : Snapshot} {s : Session Image} (hhost : s.host = t.host)
    (hsegment : ∀ key, (perform (.getSegment key) s).1 = .segment (t.lookups.segment key))
    (hregions : ∀ r ∈ t.fileRegions,
      r.address.toNat + r.size.toNat < UInt64.size ∧ r.offset.toNat + r.size.toNat < UInt64.size)
    (hsegments : ∀ g ∈ t.segments, g.start ≤ g.stop) : Faultless t s := by
  have hview := view_eq hhost
  have hhanded : ∀ g, (∃ key, (perform (.getSegment key) s).1 = .segment (.ok g)) ∨ g ∈ s.view.segments →
      g.start ≤ g.stop := by
    rintro g (⟨key, hkey⟩ | hlisted)
    · rw [hsegment] at hkey
      obtain ⟨e, he, rfl⟩ := Snapshot.mem_segments_of_segment (Answer.segment.inj hkey)
      exact hsegments e he
    · rw [hview] at hlisted
      obtain ⟨e, he, rfl⟩ := Snapshot.mem_segments_of_listed hlisted
      exact hsegments e he
  have hmap : ∀ {α β : Type} (f : α → β) (x : α), (Except.ok x : Checked α).map f = .ok (f x) := fun _ _ => rfl
  constructor
  case segment =>
    intro g hg
    have hsize : Checked.segmentSize g = .ok g.size := Checked.sub_eq_ok (hhanded g hg)
    rw [Checked.segmentData, hsize, Checked.ok_bind, Checked.read_eq_ok, hview]
    exact ⟨rfl, rfl⟩
  case readWindow => exact fun w buffer => Checked.readInto_eq_ok w s.view s.memory (by rw [hview]; rfl) buffer
  case writeWindow => exact fun w data => Checked.writeFrom_eq_ok w s.host (patch_eq hhost) s.memory data
  case seekWindow => exact Checked.seek_eq_ok
  case windowSize => exact fun w => Checked.sub_eq_ok w.start_le_stop
  case patch =>
    rw [patch_eq hhost]
    exact Checked.patch_eq_ok s.memory
  case addressOfOffset =>
    rw [hhost]
    exact Checked.addressOfOffset_eq_ok fun r hr => (hregions r hr).1
  case offsetOfAddress =>
    rw [hhost]
    exact Checked.offsetOfAddress_eq_ok fun r hr => (hregions r hr).2
  all_goals rw [hview]
  case byte => exact fun a => by rw [Checked.byte?_eq_ok, hmap]; rfl
  case word =>
    exact fun a => by rw [Checked.readNumber_eq_ok, ← Image.toNat_readWord s.memory _ a (by decide), hmap]; rfl
  case dword =>
    exact fun a => by rw [Checked.readNumber_eq_ok, ← Image.toNat_readWord s.memory _ a (by decide), hmap]; rfl
  case qword =>
    intro a
    rw [Checked.readNumber_eq_ok, ← Image.toNat_readWord s.memory _ a (by decide), hmap, Address.toUInt64_toNat]
    rfl
  case loaded => exact Checked.loaded_eq_ok s.memory
  case bytes => exact Checked.read_eq_ok s.memory
  case itemType => exact Checked.itemType_eq_ok t
  case itemHead => exact fun a => by rw [Checked.itemHead, Checked.itemAt_eq_ok]; rfl
  case itemEnd => exact Checked.itemEnd_eq_ok t
  case isCode => exact fun a => by rw [Checked.isCode, Checked.itemAt_eq_ok]; rfl
  case stringKind => exact Checked.stringKind_eq_ok t s.memory
  case stringLength => exact Checked.stringLength_eq_ok s.memory t.bigEndian
  case stringContents => exact Checked.stringContents_eq_ok s.memory t.bigEndian
  case string => exact Checked.getString_eq_ok t s.memory
  case size => exact fun a => by rw [Checked.sizeAt, Checked.itemEnd_eq_ok]; rfl

/-- In no session over an accepted snapshot, after any run, does arithmetic on addresses leave its range. -/
theorem faultless_run {t : Snapshot} {stored : Stored} (accepted : t.load = .ok stored) (capacity : Nat)
    (ops : List Operation) : Faultless stored.tables (run (stored.session capacity) ops).2 := by
  obtain ⟨hsound, hstored⟩ := Snapshot.load_eq_ok_iff.1 accepted
  have hhost : (run (stored.session capacity) ops).2.host = stored.tables.host := host_run _ ops
  have hlooks : LooksUp stored.tables.lookups (run (stored.session capacity) ops).2 :=
    looksUp_run stored.tables.host stored.image capacity ops
  refine faultless_of_host hhost hlooks.segment_eq ?_ ?_
  · rw [hstored]
    exact hsound.fileRegions
  · rw [hstored]
    exact hsound.segments

/-- Entries that end where the address space does. -/
def brimming : Snapshot :=
  { memory := [⟨0xfffffffffffffffc, #[0x61, 0x62, 0x63]⟩]
    fileRegions := [⟨0xfffffffffffffff0, 0xf, 0xf⟩]
    segments := [⟨"top", 0, 0xffffffffffffffff, none, "rw"⟩]
    items := [⟨0xfffffffffffffffe, 0, false, none, none, some 32⟩] }

theorem faultless_run_brimming : ∃ stored, brimming.load = .ok stored ∧
    Faultless stored.tables
      (run (stored.session 1) [.getSegment (.name "top"), .openWindow "w" 0 0xffffffffffffffff,
        .writeBytes 0xfffffffffffffffd [1, 2]]).2 := by
  have accepted := Snapshot.load_eq_ok_iff.2 ⟨(Snapshot.flaw?_eq_none_iff brimming).1 rfl, rfl⟩
  exact ⟨_, accepted, faultless_run accepted 1 _⟩

/-- A file region that reaches past the last address, which is refused. -/
example : Checked.addressOfOffset { fileRegions := [⟨0xffffffffffffffff, 0, 2⟩] } 1 = .error .sum := by rfl

end Session
end BinAtlas
