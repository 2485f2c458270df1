import BinAtlas.Proofs.Loading
import BinAtlas.Proofs.Places
import Mathlib.Algebra.Group.Nat.Defs

/-! Loading, told without the order of its checks. A snapshot is accepted exactly where each of its
entries can be; one that is refused is refused for the first entry that cannot, table after table;
and one that is accepted has its three searched tables in order and is otherwise as it was. -/

namespace BinAtlas

def FunctionEntry.WellFormed (f : FunctionEntry) : Prop := f.start ≤ f.stop

def SegmentEntry.WellFormed (g : SegmentEntry) : Prop := g.start ≤ g.stop

/-- The end of a range is an address, too, so no range reaches the last one. -/
def Region.WellFormed (r : Region) : Prop := r.start.toNat + r.bytes.size ≤ 2 ^ 64 - 1

def FileRegion.WellFormed (r : FileRegion) : Prop :=
  r.address.toNat + r.size.toNat ≤ 2 ^ 64 - 1 ∧ r.offset.toNat + r.size.toNat ≤ 2 ^ 64 - 1

def Item.WellFormed (i : Item) : Prop := i.address.toNat + max i.size.toNat 1 ≤ 2 ^ 64 - 1

/-- The first entry of a table that cannot be. -/
def First {α : Type} (Good : α → Prop) (l : List α) (a : α) : Prop :=
  ∃ before after, l = before ++ a :: after ∧ ¬ Good a ∧ ∀ b ∈ before, Good b

namespace Snapshot

structure Consistent (t : Snapshot) : Prop where
  functions : ∀ f ∈ t.functions, f.WellFormed
  segments : ∀ g ∈ t.segments, g.WellFormed
  memory : ∀ r ∈ t.memory, r.WellFormed
  fileRegions : ∀ r ∈ t.fileRegions, r.WellFormed
  items : ∀ i ∈ t.items, i.WellFormed

/-- What a snapshot is refused for: the first bad entry of a table, where all tables before it are good. -/
inductive FirstFlaw (t : Snapshot) : Unsound → Prop
  | function {f : FunctionEntry} (first : First FunctionEntry.WellFormed t.functions f) :
    FirstFlaw t (.function f.start f.stop)
  | segment {g : SegmentEntry} (functions : ∀ f ∈ t.functions, f.WellFormed)
      (first : First SegmentEntry.WellFormed t.segments g) : FirstFlaw t (.segment g.name)
  | region {r : Region} (functions : ∀ f ∈ t.functions, f.WellFormed) (segments : ∀ g ∈ t.segments, g.WellFormed)
      (first : First Region.WellFormed t.memory r) : FirstFlaw t (.region r.start)
  | fileRegion {r : FileRegion} (functions : ∀ f ∈ t.functions, f.WellFormed)
      (segments : ∀ g ∈ t.segments, g.WellFormed) (memory : ∀ r ∈ t.memory, r.WellFormed)
      (first : First FileRegion.WellFormed t.fileRegions r) : FirstFlaw t (.fileRegion r.address)
  | item {i : Item} (functions : ∀ f ∈ t.functions, f.WellFormed) (segments : ∀ g ∈ t.segments, g.WellFormed)
      (memory : ∀ r ∈ t.memory, r.WellFormed) (fileRegions : ∀ r ∈ t.fileRegions, r.WellFormed)
      (first : First Item.WellFormed t.items i) : FirstFlaw t (.item i.address)

/-- What is kept of a snapshot: functions, items and memory in the order of their starts, those of one
start as they stood, and all else as it was, with the memory taken out. -/
structure Reorders (t : Snapshot) (stored : Stored) : Prop where
  functions : Arranged (·.start) t.functions stored.tables.functions
  items : Arranged (·.address) t.items stored.tables.items
  image : Arranged (·.start) t.memory stored.image
  rest : stored.tables =
    { t with functions := stored.tables.functions, items := stored.tables.items, memory := [] }

end Snapshot

theorem FunctionEntry.flawed_iff (f : FunctionEntry) : decide (f.stop < f.start) = true ↔ ¬ f.WellFormed := by
  rw [decide_eq_true_eq, WellFormed, UInt64.not_le]

theorem SegmentEntry.flawed_iff (g : SegmentEntry) : decide (g.stop < g.start) = true ↔ ¬ g.WellFormed := by
  rw [decide_eq_true_eq, WellFormed, UInt64.not_le]

theorem Address.plus?_isNone_iff (a : Address) (n : Nat) : (a.plus? n).isNone ↔ ¬ a.toNat + n ≤ 2 ^ 64 - 1 := by
  rw [Option.isNone_iff_eq_none, plus?_eq_none_iff, UInt64.size]
  omega

theorem Region.flawed_iff (r : Region) : r.stop?.isNone ↔ ¬ r.WellFormed := Address.plus?_isNone_iff _ _

theorem FileRegion.flawed_iff (r : FileRegion) : (!r.fits) = true ↔ ¬ r.WellFormed := by
  rw [fits, WellFormed, Bool.not_and, Bool.or_eq_true, Option.not_isSome, Option.not_isSome, Address.plus?_isNone_iff,
    Address.plus?_isNone_iff, not_and_or]

theorem Item.flawed_iff (i : Item) : i.stop?.isNone ↔ ¬ i.WellFormed := by
  rw [WellFormed, ← toNat_extent]
  exact Address.plus?_isNone_iff _ _

section Search

variable {α : Type} {Good : α → Prop} {p : α → Bool} {l : List α} (hp : ∀ a, p a ↔ ¬ Good a)

include hp

theorem find?_eq_some_iff_first {a : α} : l.find? p = some a ↔ First Good l a := by
  rw [List.find?_eq_some_iff_append, hp]
  constructor
  · rintro ⟨hbad, before, after, hl, hbefore⟩
    refine ⟨before, after, hl, hbad, fun b hb => ?_⟩
    have hgood := hbefore b hb
    rwa [Bool.not_eq_true', ← Bool.not_eq_true, hp, not_not] at hgood
  · rintro ⟨before, after, hl, hbad, hbefore⟩
    refine ⟨hbad, before, after, hl, fun b hb => ?_⟩
    rw [Bool.not_eq_true', ← Bool.not_eq_true, hp, not_not]
    exact hbefore b hb

theorem find?_eq_none_iff_good : l.find? p = none ↔ ∀ a ∈ l, Good a := by
  simp only [List.find?_eq_none, hp, not_not]

/-- A table is searched first; the tables after it only count where it is good. -/
theorem search_eq_some_iff {name : α → Unsound} {rest : Option Unsound} {what : Unsound} :
    ((l.find? p).map name <|> rest) = some what ↔
      (∃ a, First Good l a ∧ name a = what) ∨ (∀ a ∈ l, Good a) ∧ rest = some what := by
  rw [← find?_eq_none_iff_good hp]
  simp only [← find?_eq_some_iff_first hp]
  cases l.find? p with
  | none => simp
  | some a => simp

end Search

namespace Snapshot

theorem flaw?_eq_some_iff (t : Snapshot) (what : Unsound) : t.flaw? = some what ↔ t.FirstFlaw what := by
  unfold flaw?
  rw [search_eq_some_iff FunctionEntry.flawed_iff, search_eq_some_iff SegmentEntry.flawed_iff,
    search_eq_some_iff Region.flawed_iff, search_eq_some_iff FileRegion.flawed_iff, Option.map_eq_some_iff]
  simp only [find?_eq_some_iff_first Item.flawed_iff]
  constructor
  · rintro (⟨f, first, rfl⟩ | ⟨hf, ⟨g, first, rfl⟩ | ⟨hg, ⟨r, first, rfl⟩ | ⟨hm, ⟨r, first, rfl⟩ |
      ⟨hr, i, first, rfl⟩⟩⟩⟩)
    · exact .function first
    · exact .segment hf first
    · exact .region hf hg first
    · exact .fileRegion hf hg hm first
    · exact .item hf hg hm hr first
  · intro h
    cases h with
    | function first => exact .inl ⟨_, first, rfl⟩
    | segment hf first => exact .inr ⟨hf, .inl ⟨_, first, rfl⟩⟩
    | region hf hg first => exact .inr ⟨hf, .inr ⟨hg, .inl ⟨_, first, rfl⟩⟩⟩
    | fileRegion hf hg hm first => exact .inr ⟨hf, .inr ⟨hg, .inr ⟨hm, .inl ⟨_, first, rfl⟩⟩⟩⟩
    | item hf hg hm hr first => exact .inr ⟨hf, .inr ⟨hg, .inr ⟨hm, .inr ⟨hr, _, first, rfl⟩⟩⟩⟩

theorem sound_iff_consistent (t : Snapshot) : t.Sound ↔ t.Consistent := by
  constructor
  · intro h
    refine ⟨h.functions, h.segments, fun r hr => ?_, fun r hr => ?_, fun i hi => ?_⟩
    · exact Nat.le_pred_of_lt (h.memory r hr)
    · exact ⟨Nat.le_pred_of_lt (h.fileRegions r hr).1, Nat.le_pred_of_lt (h.fileRegions r hr).2⟩
    · rw [Item.WellFormed, ← Item.toNat_extent]
      exact Nat.le_pred_of_lt (h.items i hi)
  · intro h
    refine ⟨h.functions, h.segments, fun r hr => ?_, fun r hr => ?_, fun i hi => ?_⟩
    · exact Nat.lt_of_le_pred (by decide) (h.memory r hr)
    · exact ⟨Nat.lt_of_le_pred (by decide) (h.fileRegions r hr).1, Nat.lt_of_le_pred (by decide) (h.fileRegions r hr).2⟩
    · rw [Item.toNat_extent]
      exact Nat.lt_of_le_pred (by decide) (h.items i hi)

/-- There is one way to put the tables in order, so what is kept is known from the document. -/
theorem reorders_iff (t : Snapshot) (stored : Stored) :
    Reorders t stored ↔ stored =
      { tables :=
          { t with
            functions := t.functions.mergeSort fun f g => f.start ≤ g.start
            items := t.items.mergeSort fun i j => i.address ≤ j.address
            memory := [] }
        image := t.memory.mergeSort fun r s => r.start ≤ s.start } := by
  constructor
  · intro h
    obtain ⟨tables, image⟩ := stored
    obtain ⟨hfunctions, hitems, himage, hrest⟩ := h
    dsimp only at hfunctions hitems himage hrest
    rw [hrest, hfunctions.unique (arranged_mergeSort _ _), hitems.unique (arranged_mergeSort _ _),
      himage.unique (arranged_mergeSort _ _)]
  · rintro rfl
    exact ⟨arranged_mergeSort _ _, arranged_mergeSort _ _, arranged_mergeSort _ _, rfl⟩

/-- Loading accepts the consistent snapshots alone, names the first flaw of any other, and only reorders
what it accepts. -/
theorem load_exact (t : Snapshot) :
    ((∃ stored, t.load = .ok stored) ↔ t.Consistent) ∧
    (∀ e, t.load = .error e ↔ ∃ what, e = .unsound what ∧ t.FirstFlaw what) ∧
    ∀ stored, t.load = .ok stored ↔ t.Consistent ∧ Reorders t stored := by
  have hok : ∀ stored, t.load = .ok stored ↔ t.Consistent ∧ Reorders t stored := by
    intro stored
    rw [load_eq_ok_iff, sound_iff_consistent, reorders_iff]
  refine ⟨?_, ?_, hok⟩
  · constructor
    · rintro ⟨stored, hload⟩
      exact ((hok stored).1 hload).1
    · intro h
      exact ⟨_, (hok _).2 ⟨h, (reorders_iff t _).2 rfl⟩⟩
  · intro e
    simp only [← flaw?_eq_some_iff]
    unfold load
    cases t.flaw? with
    | none => simp
    | some what => simp [eq_comm]

/-- The item would end past the last address; the region that would is named, its table comes first. -/
example :
    ({ fileRegions := [⟨0, 1, 2⟩, ⟨7, 0xffffffffffffffff, 1⟩]
       items := [⟨0xffffffffffffffff, 0, true, none, none, none⟩] } : Snapshot).load =
      .error (.unsound (.fileRegion 7)) := rfl

end Snapshot
end BinAtlas
