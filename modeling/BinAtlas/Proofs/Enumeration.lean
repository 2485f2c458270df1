import BinAtlas.Host.Stored
import BinAtlas.Proofs.Arranged
import BinAtlas.Proofs.Loading
import BinAtlas.Proofs.Results
import BinAtlas.Session.Operation

/-! Functions of a range. The starts are filtered first and each of them is looked up again, by the
first function around it, so where functions overlap one of them may be yielded for the start of
another. An enumeration gives the functions that begin in the range, and them alone, exactly where no
other function covers a start in it. -/

namespace BinAtlas

/-- Whether a function begins in a range. A bound that is left out bounds nothing. -/
def FunctionEntry.beginsIn (f : FunctionEntry) (start stop : Option Address) : Bool :=
  start.all (· ≤ f.start) && stop.all (f.start < ·)

/-- What an enumeration of a range is meant to give: the functions that begin in it, each once, in the
order of their starts, those of one start as they are listed. -/
structure ListsBeginnings (listed : List FunctionEntry) (v : View) (start stop : Option Address)
    (l : List FunctionEntry) : Prop where
  arranged : Arranged (·.start) (listed.filter (·.beginsIn start stop)) l
  functions : v.functions start stop = l.map .ok
  collected : v.collectFunctions start stop = .ok (l.map v.shown)
  ofSegment : ∀ g : Segment, start = some g.start → stop = some g.stop → v.segmentFunctions g = l.map .ok

/-- What an enumeration gives for a function of the range: one around its start, and none around it
begins before that. -/
structure Surrounds (listed : List FunctionEntry) (g h : FunctionEntry) : Prop where
  mem : h ∈ listed
  covers : h.covers g.start
  least : ∀ f ∈ listed, f.covers g.start → h.start ≤ f.start

namespace FunctionEntry

theorem covers_start (f : FunctionEntry) : f.covers f.start := by
  unfold covers
  rw [beq_self_eq_true, Bool.true_or]

theorem start_le_of_covers {f : FunctionEntry} {a : Address} (h : f.covers a) : f.start ≤ a := by
  unfold covers at h
  rcases Bool.or_eq_true_iff.1 h with h | h
  · rw [eq_of_beq h]
    exact UInt64.le_refl _
  · exact UInt64.le_of_lt (of_decide_eq_true (Bool.and_eq_true_iff.1 h).1)

/-- Of the functions that reach into a range, those with a start after its bound begin in it. -/
theorem meets_and_start (f : FunctionEntry) (start stop : Option Address) :
    (start.all (· ≤ f.start) && f.meets start stop) = f.beginsIn start stop := by
  unfold meets beginsIn
  cases start with
  | none => rfl
  | some s => by_cases h : s ≤ f.start <;> simp [h]

end FunctionEntry

/-- If the functions are right, so is what is made of them. -/
theorem listsBeginnings_of_map {listed l : List FunctionEntry} {v : View} {start stop : Option Address}
    (harr : Arranged (·.start) (listed.filter (·.beginsIn start stop)) l) (h : v.functions start stop = l.map .ok) :
    ListsBeginnings listed v start stop l where
  arranged := harr
  functions := h
  collected := by rw [View.collectFunctions, h, mapM_id_map_ok]
  ofSegment g hstart hstop := by rw [View.segmentFunctions, ← hstart, ← hstop, h]

namespace Snapshot

/-- The functions of a snapshot in the order in which they are searched. -/
def sorted (t : Snapshot) : List FunctionEntry := t.functions.mergeSort fun f g => f.start ≤ g.start

variable {t : Snapshot} {stored : Stored} (accepted : t.load = .ok stored) (m : Image) (start stop : Option Address)

theorem arranged_sorted (t : Snapshot) : Arranged (·.start) t.functions t.sorted := arranged_mergeSort _ _

include accepted

theorem functions_of_load : stored.tables.functions = t.sorted := by
  obtain ⟨-, rfl⟩ := load_eq_ok_iff.1 accepted
  rfl

/-- Each start in the range is looked up on its own. -/
theorem functions_eq_map :
    (stored.tables.view m).functions start stop =
      (t.sorted.filter (·.beginsIn start stop)).map fun g => (stored.tables.view m).getFunction g.start := by
  unfold View.functions
  change ((((stored.tables.functions.filter (·.meets start stop)).map (·.start)).filter _).map _) = _
  rw [functions_of_load accepted, List.filter_map, List.map_map, List.filter_filter]
  simp only [Function.comp_def, FunctionEntry.meets_and_start]

/-- A start is covered by its own function, so the look-up finds one around it. -/
theorem getFunction_start {g : FunctionEntry} (hg : g ∈ t.functions) :
    ∃ h, (stored.tables.view m).getFunction g.start = .ok h ∧ Surrounds t.functions g h := by
  have harr := arranged_sorted t
  have hview : (stored.tables.view m).functionAt g.start = t.sorted.find? (·.covers g.start) := by
    rw [← functions_of_load accepted]
    rfl
  obtain ⟨h, hfind⟩ : ∃ h, t.sorted.find? (·.covers g.start) = some h := by
    refine Option.isSome_iff_exists.1 (List.find?_isSome.2 ⟨g, ?_, g.covers_start⟩)
    exact harr.perm.mem_iff.2 hg
  refine ⟨h, ?_, harr.perm.mem_iff.1 (List.mem_of_find?_eq_some hfind), ?_, fun f hf hcov => ?_⟩
  · unfold View.getFunction
    rw [hview, hfind]
  · simpa using List.find?_some hfind
  · exact harr.le_of_find? hfind hf hcov

/-- An enumeration never fails; for every function of the range it gives one that surrounds it. -/
theorem exists_surrounding : ∃ l hs, Arranged (·.start) (t.functions.filter (·.beginsIn start stop)) l ∧
    List.Forall₂ (Surrounds t.functions) l hs ∧ (stored.tables.view m).functions start stop = hs.map .ok := by
  have harr := (arranged_sorted t).filter (·.beginsIn start stop)
  rw [functions_eq_map accepted]
  generalize t.sorted.filter (·.beginsIn start stop) = l at *
  have hfound : ∀ g ∈ l, ∃ h, (stored.tables.view m).getFunction g.start = .ok h ∧ Surrounds t.functions g h :=
    fun g hg => getFunction_start accepted m (List.mem_filter.1 (harr.perm.mem_iff.1 hg)).1
  obtain ⟨hs, hall, heq⟩ := exists_map_ok hfound
  exact ⟨l, hs, harr, hall, heq⟩

/-- A function is found by its own start where no other one covers it, and only there. -/
theorem getFunction_start_iff {g : FunctionEntry} (hg : g ∈ t.functions) :
    (∀ f ∈ t.functions, f.start = g.start → (stored.tables.view m).getFunction g.start = .ok f) ↔
      ∀ f ∈ t.functions, f.covers g.start → f = g := by
  obtain ⟨h, hfind, hsur⟩ := getFunction_start accepted m hg
  constructor
  · intro hown f hf hcov
    have hgown := hown g hg rfl
    obtain rfl : h = g := Except.ok.inj (hfind.symm.trans hgown)
    have hstart : f.start = h.start := UInt64.le_antisymm (f.start_le_of_covers hcov) (hsur.least f hf hcov)
    exact Except.ok.inj ((hown f hf hstart).symm.trans hgown)
  · intro halone f hf hstart
    have hcov : f.covers g.start := hstart ▸ f.covers_start
    rw [hfind, halone h hsur.mem hsur.covers, halone f hf hcov]

/-- For the functions of a snapshot and any range: what an enumeration gives, and that it gives the
functions which begin in the range exactly where no other function covers the start of one of them. -/
theorem lists_beginnings_iff :
    (∃ l hs, Arranged (·.start) (t.functions.filter (·.beginsIn start stop)) l ∧
      List.Forall₂ (Surrounds t.functions) l hs ∧ (stored.tables.view m).functions start stop = hs.map .ok) ∧
    ((∃ l, ListsBeginnings t.functions (stored.tables.view m) start stop l) ↔
      ∀ g ∈ t.functions, g.beginsIn start stop → ∀ f ∈ t.functions, f.covers g.start → f = g) := by
  have harr := (arranged_sorted t).filter (·.beginsIn start stop)
  refine ⟨exists_surrounding accepted m start stop, ?_, fun halone => ⟨_, listsBeginnings_of_map harr ?_⟩⟩
  · rintro ⟨l, hl⟩ g hg hin
    have hfun := hl.functions
    rw [hl.arranged.unique harr, functions_eq_map accepted, List.map_inj_left] at hfun
    refine (getFunction_start_iff accepted m hg).1 fun f hf hstart => ?_
    rw [← hstart]
    refine hfun f (List.mem_filter.2 ⟨(arranged_sorted t).perm.mem_iff.2 hf, ?_⟩)
    unfold FunctionEntry.beginsIn at hin ⊢
    rwa [hstart]
  · rw [functions_eq_map accepted, List.map_inj_left]
    intro g hmem
    obtain ⟨hg, hin⟩ := List.mem_filter.1 (harr.perm.mem_iff.1 hmem)
    exact (getFunction_start_iff accepted m hg).2 (halone g hg hin) g hg rfl

end Snapshot

/-- A function within another one. -/
def nested : Snapshot := { functions := [⟨0x1000, 0x2000, some "outer"⟩, ⟨0x1500, 0x1600, some "inner"⟩] }

/-- From the start of the inner function on, the outer one is listed, which begins before. -/
theorem nested_lists_outer : nested.load = .ok ⟨nested, []⟩ ∧
    (nested.view []).functions (some 0x1500) none = [.ok ⟨0x1000, 0x2000, some "outer"⟩] ∧
    ¬ ∃ l, ListsBeginnings nested.functions (nested.view []) (some 0x1500) none l := by
  have hsorted : nested.sorted = nested.functions := List.mergeSort_of_pairwise (by decide)
  have houter : (nested.view []).functions (some 0x1500) none = [.ok ⟨0x1000, 0x2000, some "outer"⟩] := rfl
  refine ⟨Snapshot.load_eq_ok_iff.2 ⟨(Snapshot.flaw?_eq_none_iff nested).1 rfl, ?_⟩, houter, ?_⟩
  · rw [← Snapshot.sorted, hsorted]
    simp [nested]
  · rintro ⟨l, hl⟩
    obtain rfl : [⟨0x1000, 0x2000, some "outer"⟩] = l :=
      List.map_injective_iff.2 (fun _ _ => Except.ok.inj) (houter.symm.trans hl.functions)
    have hin := (List.mem_filter.1 (hl.arranged.perm.mem_iff.1 List.mem_cons_self)).2
    exact absurd hin (by decide)

/-- Functions side by side, one of them empty, listed in no order. -/
def adjacent : Snapshot :=
  { functions := [⟨0x1010, 0x1020, none⟩, ⟨0x1030, 0x1030, some "empty"⟩, ⟨0x1000, 0x1010, some "main"⟩] }

theorem lists_beginnings_iff_adjacent : ∃ stored, adjacent.load = .ok stored ∧
    ∃ l, ListsBeginnings adjacent.functions (stored.tables.view []) (some 0x1004) (some 0x1031) l := by
  have accepted := Snapshot.load_eq_ok_iff.2 ⟨(Snapshot.flaw?_eq_none_iff adjacent).1 rfl, rfl⟩
  exact ⟨_, accepted, (Snapshot.lists_beginnings_iff accepted [] (some 0x1004) (some 0x1031)).2.2 (by decide)⟩

end BinAtlas
