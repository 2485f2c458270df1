import BinAtlas.Host.Stored
import BinAtlas.Proofs.Loading
import BinAtlas.Proofs.Session.Direct
import BinAtlas.View.Segments
import Mathlib.Data.List.Find

/-! Segments by key and by number. A host is asked for a segment by an address, by a name or by its number, and
builds its answer anew each time. All three are searches of one list, that of the table as it is shown. -/

namespace BinAtlas

namespace SegmentKey

/-- Whether a segment is what a key asks for. -/
def picks : SegmentKey → Segment → Bool
  | .address a => (·.contains a)
  | .name n => (·.name == n)

/-- What is said of a key that picks nothing. -/
def missing : SegmentKey → Error
  | .address a => .notFound (.segmentAt a)
  | .name n => .notFound (.segmentNamed n)

/-- The first segment of a list that a key picks. -/
def choose (key : SegmentKey) (l : List Segment) : Except Error Segment :=
  match l.find? key.picks with
  | some g => .ok g
  | none => .error key.missing

variable {key : SegmentKey} {l : List Segment}

theorem choose_eq_ok_iff {g : Segment} : key.choose l = .ok g ↔ l.find? key.picks = some g := by
  unfold choose
  cases l.find? key.picks <;> simp

theorem choose_eq_error_iff : key.choose l = .error key.missing ↔ ∀ g ∈ l, ¬ key.picks g := by
  unfold choose
  cases hfind : l.find? key.picks with
  | none => simpa using List.find?_eq_none.1 hfind
  | some g =>
    refine iff_of_false nofun fun hall => ?_
    exact hall g (List.mem_of_find?_eq_some hfind) (List.find?_some hfind)

theorem mem_of_choose {g : Segment} (h : key.choose l = .ok g) : g ∈ l :=
  List.mem_of_find?_eq_some (choose_eq_ok_iff.1 h)

end SegmentKey

namespace Snapshot

/-- The segments of the table as they are shown, in the order of the document. -/
def shownSegments (t : Snapshot) : List Segment := t.segments.map t.segmentOf

/-- Every number below the count has a segment. -/
theorem segments_view (t : Snapshot) (m : Image) : (t.view m).segments = t.shownSegments := by
  change (List.range t.segments.length).filterMap (fun i => t.segments[i]?.map t.segmentOf) = t.shownSegments
  unfold shownSegments
  induction t.segments with
  | nil => rfl
  | cons g l ih =>
    rw [List.length_cons, List.range_succ_eq_map, List.filterMap_cons, List.filterMap_map]
    exact congrArg (t.segmentOf g :: ·) ih

/-- The look-ups by address and by name find what is first in the list. -/
theorem segment_lookups (t : Snapshot) (key : SegmentKey) : t.lookups.segment key = key.choose t.shownSegments := by
  rw [SegmentKey.choose, shownSegments, List.find?_map]
  cases key <;> rfl

variable {t : Snapshot} {stored : Stored} (accepted : t.load = .ok stored)

include accepted

theorem shownSegments_of_load : stored.tables.shownSegments = t.shownSegments := by
  obtain ⟨-, rfl⟩ := load_eq_ok_iff.1 accepted
  rfl

theorem start_le_stop_of_shown {g : Segment} (hg : g ∈ t.shownSegments) : g.start ≤ g.stop := by
  obtain ⟨e, he, rfl⟩ := List.mem_map.1 hg
  exact (load_eq_ok_iff.1 accepted).1.segments e he

end Snapshot
end BinAtlas
