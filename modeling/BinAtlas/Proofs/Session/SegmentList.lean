import BinAtlas.Proofs.Segments
import BinAtlas.Proofs.Session.Memoization
import BinAtlas.Proofs.Session.ByteStore

/-! Segments of a session. A look-up by address or by name gives the first one of the list that is enumerated, field
by field the same whether it was remembered or not. Only the record is remembered: the bytes of a segment are read
anew, and each write shows in them. -/

namespace BinAtlas.Session

/-- The bytes of a segment, one for each of its addresses. -/
structure HoldsData (s : Session Image) (g : Segment) (bytes : List UInt8) : Prop where
  length : bytes.length = g.stop.toNat - g.start.toNat
  content : ∀ i < g.stop.toNat - g.start.toNat,
    bytes[i]? = (s.memory.contentAt (g.start.toNat + i)).or (some 0)

/-- What a session says of segments, where `l` is the list of them. -/
structure FollowsList (s : Session Image) (l : List Segment) : Prop where
  listed : (perform .segments s).1 = .segments l
  ordered : ∀ g ∈ l, g.start ≤ g.stop
  found_iff : ∀ key g, (perform (.getSegment key) s).1 = .segment (.ok g) ↔ l.find? key.picks = some g
  missing_iff : ∀ key, (perform (.getSegment key) s).1 = .segment (.error key.missing) ↔ ∀ g ∈ l, ¬ key.picks g
  data : ∀ g ∈ l, ∃ bytes, s.view.segmentData g = .ok bytes ∧ HoldsData s g bytes
  /-- Through a key the data is that of the segment found. -/
  dataOf : ∀ json key, SegmentKey.ofJson json = .ok key →
    (perform (.segmentData json) s).1 = .bytes ((key.choose l).bind s.view.segmentData)

theorem perform_segmentData {s : Session Image} {json : Json} {key : SegmentKey}
    (h : SegmentKey.ofJson json = .ok key) :
    (perform (.segmentData json) s).1 = .bytes ((getSegment key s).1.bind s.view.segmentData) := by
  have hby : getSegmentBy json = (getSegment key : Action Image _) := by rw [getSegmentBy, h]
  have hview := (quiet_getSegment key s).view
  change Answer.bytes ((getSegmentBy json s).1.bind (getSegmentBy json s).2.view.segmentData) = _
  rw [hby, hview]

theorem holdsData {t : Snapshot} {s : Session Image} (stored : s.host = t.host) {g : Segment} (hg : g.start ≤ g.stop) :
    ∃ bytes, s.view.segmentData g = .ok bytes ∧ HoldsData s g bytes := by
  have hsize : g.size.toNat = g.stop.toNat - g.start.toNat := UInt64.toNat_sub_of_le _ _ hg
  have hread : s.view.segmentData g = .ok (s.memory.read g.start g.size.toNat 0) :=
    congrArg Except.ok (view_bytes stored _ _ 0)
  refine ⟨_, hread, ?_, ?_⟩
  · rw [Image.length_read, hsize]
  · intro i hi
    have hfill : some (0 : UInt8) = none → (s.memory.contentAt (g.start.toNat + i)).isSome := nofun
    exact read_getElem? s.memory g.start (hsize ▸ hi) hfill

/-- The look-ups of a session and its list agree, at every moment of every run. -/
theorem followsList_run {t : Snapshot} {stored : Stored} (accepted : t.load = .ok stored) (capacity : Nat)
    (ops : List Operation) : FollowsList (run (stored.session capacity) ops).2 t.shownSegments := by
  have hlooks : LooksUp stored.tables.lookups (run (stored.session capacity) ops).2 :=
    looksUp_run stored.tables.host stored.image capacity ops
  have hhost : (run (stored.session capacity) ops).2.host = stored.tables.host := host_run _ ops
  have hshown := Snapshot.shownSegments_of_load accepted
  generalize (run (stored.session capacity) ops).2 = s at hlooks hhost ⊢
  have hfound : ∀ key, (perform (.getSegment key) s).1 = .segment (key.choose t.shownSegments) := by
    intro key
    rw [hlooks.segment_eq, Snapshot.segment_lookups, hshown]
  have hordered : ∀ g ∈ t.shownSegments, g.start ≤ g.stop := fun g hg => Snapshot.start_le_stop_of_shown accepted hg
  constructor
  case listed =>
    change Answer.segments s.view.segments = _
    rw [view_eq hhost, Snapshot.segments_view, hshown]
  case ordered => exact hordered
  case found_iff =>
    intro key g
    rw [hfound, Answer.segment.injEq, SegmentKey.choose_eq_ok_iff]
  case missing_iff =>
    intro key
    rw [hfound, Answer.segment.injEq, SegmentKey.choose_eq_error_iff]
  case data => exact fun g hg => holdsData hhost (hordered g hg)
  case dataOf =>
    intro json key hkey
    have hget : (getSegment key s).1 = key.choose t.shownSegments := Answer.segment.inj (hfound key)
    rw [perform_segmentData hkey, hget]

/-- Segments that overlap, share a name, are empty and leave their bitness out, over a byte that is loaded. -/
def overlaid : Snapshot :=
  { bitness := 32
    memory := [⟨0x1004, #[1]⟩]
    segments := [⟨"text", 0x1000, 0x1000, none, "r"⟩, ⟨"data", 0x1004, 0x1008, some 16, "rw"⟩,
      ⟨"text", 0x1002, 0x1006, none, "rx"⟩] }

/-- Look-ups that are remembered and evicted, one that fails, and a write after them. -/
def overlaidSteps : List Operation :=
  [.getSegment (.address 0x1005), .getSegment (.name "text"), .getSegment (.address 0x1003),
    .getSegment (.name "bss"), .writeBytes 0x1004 [9]]

theorem followsList_run_overlaid : ∃ stored, overlaid.load = .ok stored ∧
    let s := (run (stored.session 2) overlaidSteps).2
    FollowsList s overlaid.shownSegments ∧
      (perform (.getSegment (.address 0x1005)) s).1 =
        .segment (.ok ⟨"data", 0x1004, 0x1008, 16, ⟨true, true, false⟩⟩) ∧
      (perform (.getSegment (.address 0x1003)) s).1 =
        .segment (.ok ⟨"text", 0x1002, 0x1006, 32, ⟨true, false, true⟩⟩) ∧
      (perform (.getSegment (.address 0x1000)) s).1 = .segment (.error (.notFound (.segmentAt 0x1000))) := by
  have accepted := Snapshot.load_eq_ok_iff.2 ⟨(Snapshot.flaw?_eq_none_iff overlaid).1 rfl, rfl⟩
  have hfollows := followsList_run accepted 2 overlaidSteps
  refine ⟨_, accepted, hfollows, ?_, ?_, ?_⟩
  · exact (hfollows.found_iff (.address 0x1005) _).2 (by decide)
  · exact (hfollows.found_iff (.address 0x1003) _).2 (by decide)
  · exact (hfollows.missing_iff (.address 0x1000)).2 (by decide)

end BinAtlas.Session
