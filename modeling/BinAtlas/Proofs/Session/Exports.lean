import BinAtlas.Atlas
import BinAtlas.Proofs.Loading
import BinAtlas.Proofs.Session.ByteStore
import Mathlib.Data.List.Find

/-! Exports by ordinal. A host is asked for the ordinal of each number, and then for the address and the name of
that ordinal, which are those of the first row that has it. So a row is listed as it stands exactly where no
earlier row with its ordinal says something else, and a name is found in the rows that come first for their
ordinal, and in no other. -/

namespace BinAtlas

namespace View

/-- The search by name goes through the exports in order. -/
theorem exportFrom?_eq (v : View) (name : String) (i n : Nat) :
    v.exportFrom? name i n = ((List.range' i n).map v.exportAt).find? (·.name == name) := by
  induction n generalizing i with
  | zero => rfl
  | succ n ih =>
    rw [exportFrom?, List.range'_succ, List.map_cons, List.find?_cons, ih]
    change (if (v.exportAt i).name == name then _ else _) = _
    cases (v.exportAt i).name == name <;> rfl

end View

/-- What a search for a name answers with. -/
def Export.answer (name : String) : Option Export → Except Error Export
  | some e => .ok e
  | none => .error (.notFound (.exportNamed name))

theorem View.getExport_eq (v : View) (name : String) :
    v.getExport name = Export.answer name (v.exports.find? (·.name == name)) := by
  rw [getExport, exportFrom?_eq, ← List.range_eq_range']
  rfl

/-- What is found first by a weaker property is found first by a stronger one, if it has that as well. -/
theorem find?_eq_of_first {α : Type} {l : List α} {p q : α → Bool} (weaker : ∀ a, q a → p a)
    (first : ∀ a, l.find? p = some a → q a) : l.find? p = l.find? q := by
  induction l with
  | nil => rfl
  | cons a l ih =>
    cases hp : p a with
    | true =>
      have hq := first a (List.find?_cons_of_pos hp)
      rw [List.find?_cons_of_pos hp, List.find?_cons_of_pos hq]
    | false =>
      have hq : q a = false := Bool.eq_false_iff.2 fun h => Bool.eq_false_iff.1 hp (weaker a h)
      rw [List.find?_cons, hp] at first
      rw [List.find?_cons, List.find?_cons, hp, hq, ih first]

namespace ExportEntry

def shown (e : ExportEntry) : Export := { address := e.address, name := e.name }

/-- The first row with the ordinal of a row. -/
def leader (rows : List ExportEntry) (e : ExportEntry) : ExportEntry :=
  (rows.find? (·.ordinal == e.ordinal)).getD e

variable {rows : List ExportEntry} {e : ExportEntry}

theorem find?_ordinal (he : e ∈ rows) : rows.find? (·.ordinal == e.ordinal) = some (leader rows e) := by
  have hsome : (rows.find? (·.ordinal == e.ordinal)).isSome :=
    List.find?_isSome.2 ⟨e, he, beq_self_eq_true e.ordinal⟩
  obtain ⟨f, hfind⟩ := Option.isSome_iff_exists.1 hsome
  rw [leader, hfind]
  rfl

theorem leader_mem (he : e ∈ rows) : leader rows e ∈ rows := List.mem_of_find?_eq_some (find?_ordinal he)

theorem ordinal_leader (he : e ∈ rows) : (leader rows e).ordinal = e.ordinal := by
  simpa using List.find?_some (find?_ordinal he)

theorem leader_congr (he : e ∈ rows) {f : ExportEntry} (hf : f ∈ rows) (h : f.ordinal = e.ordinal) :
    leader rows f = leader rows e := by
  have hfind := find?_ordinal hf
  rw [h, find?_ordinal he, Option.some.injEq] at hfind
  exact hfind.symm

/-- The first row whose leader has a name is that leader: the leader stands no later and has the name, too. -/
theorem leader_eq_self_of_find? {name : String}
    (hfind : rows.find? (fun e => (leader rows e).name == name) = some e) : leader rows e = e := by
  obtain ⟨hname, before, after, rfl, hfirst⟩ := List.find?_eq_some_iff_append.1 hfind
  have he : e ∈ before ++ e :: after := List.mem_append_right _ List.mem_cons_self
  have hleader := find?_ordinal he
  rw [List.find?_append] at hleader
  cases hbefore : before.find? (·.ordinal == e.ordinal) with
  | some f =>
    have hf := List.mem_of_find?_eq_some hbefore
    have hsame := leader_congr he (List.mem_append_left _ hf) (by simpa using List.find?_some hbefore)
    have hnot := hfirst f hf
    rw [hsame, hname] at hnot
    cases hnot
  | none =>
    have hself : (e :: after).find? (·.ordinal == e.ordinal) = some e :=
      List.find?_cons_of_pos (beq_self_eq_true e.ordinal)
    rw [hbefore, Option.none_or, hself, Option.some.injEq] at hleader
    exact hleader.symm

theorem find?_leader_name (rows : List ExportEntry) (name : String) :
    rows.find? (fun e => (leader rows e).name == name) =
      rows.find? (fun e => leader rows e == e && e.name == name) := by
  apply find?_eq_of_first
  · intro e he
    obtain ⟨hself, hname⟩ := Bool.and_eq_true_iff.1 he
    rwa [eq_of_beq hself]
  · intro e hfind
    have hself := leader_eq_self_of_find? hfind
    have hname := List.find?_some hfind
    rw [hself] at hname ⊢
    rw [beq_self_eq_true, hname, Bool.and_self]

end ExportEntry

namespace Snapshot

variable (s : Snapshot) (m : Image)

theorem exportAt_eq {i : Nat} (hi : i < s.exports.length) :
    (s.view m).exportAt i = (ExportEntry.leader s.exports s.exports[i]).shown := by
  have hordinal : (s.view m).exportOrdinal i = s.exports[i].ordinal := by
    change ((s.exports[i]?).map (·.ordinal)).getD Address.bad = _
    rw [List.getElem?_eq_getElem hi]
    rfl
  have hrow : s.exportWith s.exports[i].ordinal = some (ExportEntry.leader s.exports s.exports[i]) :=
    ExportEntry.find?_ordinal (List.getElem_mem hi)
  rw [View.exportAt, hordinal]
  change Export.mk (((s.exportWith _).map (·.address)).getD _) (((s.exportWith _).map (·.name)).getD _) = _
  rw [hrow]
  rfl

theorem exports_eq : (s.view m).exports = s.exports.map fun e => (ExportEntry.leader s.exports e).shown := by
  apply List.ext_getElem
  · simp [View.exports, view]
  · intro i hi hrow
    simp only [View.exports, List.getElem_map, List.getElem_range]
    exact exportAt_eq s m _

theorem find?_exports (name : String) : (s.view m).exports.find? (·.name == name) =
    (s.exports.find? fun e => ExportEntry.leader s.exports e == e && e.name == name).map (·.shown) := by
  rw [exports_eq, List.find?_map, ← ExportEntry.find?_leader_name]
  apply Option.map_congr
  intro e hfind
  rw [ExportEntry.leader_eq_self_of_find? hfind]

end Snapshot

namespace Session

/-- What the exports of a session are meant to be: the rows of the table in their order, and for a name the first
row that has it. -/
structure ListsRows (rows : List ExportEntry) (s : Session Image) : Prop where
  exports : (perform .exports s).1 = .exports (rows.map (·.shown))
  getExport : ∀ name, (perform (.getExport name) s).1 =
    .exportOf (Export.answer name ((rows.find? (·.name == name)).map (·.shown)))

/-- What they are: for each row the first one with its ordinal, and for a name the first row that has it among
those that come first for their ordinal. -/
structure ListsLeaders (rows : List ExportEntry) (s : Session Image) : Prop where
  exports : (perform .exports s).1 = .exports (rows.map fun e => (ExportEntry.leader rows e).shown)
  getExport : ∀ name, (perform (.getExport name) s).1 =
    .exportOf (Export.answer name ((rows.find? fun e => ExportEntry.leader rows e == e && e.name == name).map (·.shown)))

/-- Both are the same where rows of one ordinal say the same. -/
theorem listsRows_iff {rows : List ExportEntry} {s : Session Image} (h : ListsLeaders rows s) :
    ListsRows rows s ↔ ∀ e ∈ rows, ∀ f ∈ rows, e.ordinal = f.ordinal → e.shown = f.shown := by
  constructor
  · intro hrows e he f hf hordinal
    have hsame := Answer.exports.inj (hrows.exports.symm.trans h.exports)
    have hshown := fun e he => List.map_inj_left.1 hsame e he
    rw [hshown e he, hshown f hf, ExportEntry.leader_congr hf he hordinal]
  · intro hagree
    have hshown : ∀ e ∈ rows, (ExportEntry.leader rows e).shown = e.shown := fun e he =>
      hagree _ (ExportEntry.leader_mem he) e he (ExportEntry.ordinal_leader he)
    constructor
    · rw [h.exports, List.map_congr_left hshown]
    · intro name
      have hname : ∀ e ∈ rows, ((ExportEntry.leader rows e).name == name) = (e.name == name) := by
        intro e he
        rw [show (ExportEntry.leader rows e).name = e.name from congrArg Export.name (hshown e he)]
      rw [h.getExport, ← ExportEntry.find?_leader_name, List.find?_congr hname]

/-- What the exports of a snapshot are at every moment of every run, and that they are its rows exactly where rows
of one ordinal say the same. -/
theorem exports_run_iff {t : Snapshot} {stored : Stored} (accepted : t.load = .ok stored) (capacity : Nat)
    (ops : List Operation) :
    let s := (run (stored.session capacity) ops).2
    ListsLeaders t.exports s ∧
    (ListsRows t.exports s ↔ ∀ e ∈ t.exports, ∀ f ∈ t.exports, e.ordinal = f.ordinal → e.shown = f.shown) := by
  intro s
  have hview : s.view = stored.tables.view s.memory := view_eq (host_run _ ops)
  have hexports : stored.tables.exports = t.exports := by
    obtain ⟨-, rfl⟩ := Snapshot.load_eq_ok_iff.1 accepted
    rfl
  have hleaders : ListsLeaders t.exports s := by
    constructor
    · change Answer.exports s.view.exports = _
      rw [hview, Snapshot.exports_eq, hexports]
    · intro name
      change Answer.exportOf (s.view.getExport name) = _
      rw [hview, View.getExport_eq, Snapshot.find?_exports, hexports]
  exact ⟨hleaders, listsRows_iff hleaders⟩

/-- Two symbols under one ordinal. -/
def sharedOrdinal : Snapshot := { exports := [⟨1, 0x1000, "first"⟩, ⟨1, 0x2000, "second"⟩] }

/-- The first symbol is listed twice, and the second neither listed nor found by its name. -/
theorem sharedOrdinal_hides_second : ∃ stored, sharedOrdinal.load = .ok stored ∧
    let s := stored.session 1024
    (perform .exports s).1 = .exports [⟨0x1000, "first"⟩, ⟨0x1000, "first"⟩] ∧
    (perform (.getExport "second") s).1 = .exportOf (.error (.notFound (.exportNamed "second"))) ∧
    ¬ ListsRows sharedOrdinal.exports s := by
  have accepted := Snapshot.load_eq_ok_iff.2 ⟨(Snapshot.flaw?_eq_none_iff sharedOrdinal).1 rfl, rfl⟩
  refine ⟨_, accepted, rfl, rfl, fun hrows => ?_⟩
  have hsecond : Answer.exports [⟨0x1000, "first"⟩, ⟨0x1000, "first"⟩] =
      .exports [⟨0x1000, "first"⟩, ⟨0x2000, "second"⟩] := hrows.exports
  exact absurd (Answer.exports.inj hsecond) (by decide)

/-- Ordinals in no order, the greatest one among them, and a row that stands twice; one name for two symbols. -/
def mixedOrdinals : Snapshot :=
  { exports := [⟨7, 0x1000, "main"⟩, ⟨0xffffffffffffffff, 0x3000, "late"⟩, ⟨7, 0x1000, "main"⟩, ⟨3, 0x2000, "main"⟩] }

theorem exports_run_iff_mixed : ∃ stored, mixedOrdinals.load = .ok stored ∧
    ListsRows mixedOrdinals.exports (run (stored.session 0) [.exports, .getExport "late"]).2 := by
  have accepted := Snapshot.load_eq_ok_iff.2 ⟨(Snapshot.flaw?_eq_none_iff mixedOrdinals).1 rfl, rfl⟩
  exact ⟨_, accepted, (exports_run_iff accepted 0 [.exports, .getExport "late"]).2.2 (by decide)⟩

end Session
end BinAtlas
