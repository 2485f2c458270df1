import BinAtlas.Atlas
import BinAtlas.Proofs.Loading
import Mathlib.Data.List.Nodup

/-! The order of a document. Memory, functions and items are put in order when a snapshot is opened, so it
is accepted in every order of theirs or in none. Where no two entries of a table start together there is
one order to put them in, and a session cannot tell how they stood. -/

namespace BinAtlas

/-- Distinct keys leave one arrangement, however the entries stood. -/
theorem Arranged.eq_of_perm {α : Type} {key : α → Address} {l m l' m' : List α} (hl : Arranged key l l')
    (hm : Arranged key m m') (hperm : m.Perm l) (hdistinct : (l.map key).Nodup) : l' = m' := by
  have hsame : l'.Perm m' := hl.perm.trans (hperm.symm.trans hm.perm.symm)
  apply hsame.eq_of_pairwise _ hl.ordered hm.ordered
  intro a b ha hb hab hba
  have hal : a ∈ l := hl.perm.mem_iff.1 ha
  have hbl : b ∈ l := hperm.mem_iff.1 (hm.perm.mem_iff.1 hb)
  exact List.inj_on_of_nodup_map hdistinct hal hbl (UInt64.le_antisymm hab hba)

namespace Snapshot

/-- The second snapshot is the first one with memory, functions and items in any order. -/
structure Permuted (t u : Snapshot) : Prop where
  memory : u.memory.Perm t.memory
  functions : u.functions.Perm t.functions
  items : u.items.Perm t.items
  rest : u = { t with memory := u.memory, functions := u.functions, items := u.items }

/-- No two regions, no two functions and no two items start at one address. -/
structure DistinctStarts (t : Snapshot) : Prop where
  memory : (t.memory.map (·.start)).Nodup
  functions : (t.functions.map (·.start)).Nodup
  items : (t.items.map (·.address)).Nodup

variable {t u : Snapshot}

theorem Permuted.symm (h : t.Permuted u) : u.Permuted t where
  memory := h.memory.symm
  functions := h.functions.symm
  items := h.items.symm
  rest := by rw [h.rest]

/-- What makes an entry sound is not where it stands. -/
theorem Permuted.sound (h : t.Permuted u) (ht : t.Sound) : u.Sound := by
  constructor
  · intro f hf
    exact ht.functions f (h.functions.mem_iff.1 hf)
  · rw [h.rest]
    exact ht.segments
  · intro r hr
    exact ht.memory r (h.memory.mem_iff.1 hr)
  · rw [h.rest]
    exact ht.fileRegions
  · intro i hi
    exact ht.items i (h.items.mem_iff.1 hi)

theorem exists_load_iff (t : Snapshot) : (∃ stored, t.load = .ok stored) ↔ t.Sound := by
  constructor
  · rintro ⟨stored, hload⟩
    exact (load_eq_ok_iff.1 hload).1
  · intro h
    exact ⟨_, load_eq_ok_iff.2 ⟨h, rfl⟩⟩

/-- Both are opened as the same tables over the same image. -/
theorem Permuted.load_eq (h : t.Permuted u) (hdistinct : t.DistinctStarts) {x y : Stored}
    (hx : t.load = .ok x) (hy : u.load = .ok y) : x = y := by
  obtain ⟨-, rfl⟩ := load_eq_ok_iff.1 hx
  obtain ⟨-, rfl⟩ := load_eq_ok_iff.1 hy
  have hmemory := (arranged_mergeSort (·.start) t.memory).eq_of_perm (arranged_mergeSort (·.start) u.memory)
    h.memory hdistinct.memory
  have hfunctions := (arranged_mergeSort (·.start) t.functions).eq_of_perm
    (arranged_mergeSort (·.start) u.functions) h.functions hdistinct.functions
  have hitems := (arranged_mergeSort (·.address) t.items).eq_of_perm (arranged_mergeSort (·.address) u.items)
    h.items hdistinct.items
  rw [hmemory, hfunctions, hitems, h.rest]

end Snapshot

namespace Session

/-- In whatever order the tables stand, a snapshot is accepted or not; and if no two entries start together
every run gives the same answers and leaves the same session. -/
theorem run_of_permuted {t u : Snapshot} (h : t.Permuted u) :
    ((∃ x, t.load = .ok x) ↔ ∃ y, u.load = .ok y) ∧
    (t.DistinctStarts → ∀ x y, t.load = .ok x → u.load = .ok y → ∀ (capacity : Nat) (ops : List Operation),
      run (x.session capacity) ops = run (y.session capacity) ops) := by
  constructor
  · rw [Snapshot.exists_load_iff, Snapshot.exists_load_iff]
    exact ⟨h.sound, h.symm.sound⟩
  · intro hdistinct x y hx hy capacity ops
    rw [h.load_eq hdistinct hx hy]

/-- Entries of each table that overlap, the later one first. -/
def crossed : Snapshot :=
  { memory := [⟨0x1002, #[5, 6, 7, 8]⟩, ⟨0x1000, #[1, 2, 3, 4]⟩]
    functions := [⟨0x1001, 0x1004, some "inner"⟩, ⟨0x1000, 0x1006, some "outer"⟩]
    items := [⟨0x1002, 2, false, some "upper", none, none⟩, ⟨0x1000, 3, true, none, none, none⟩] }

/-- The same entries, the earlier one first. -/
def uncrossed : Snapshot :=
  { memory := crossed.memory.reverse
    functions := crossed.functions.reverse
    items := crossed.items.reverse }

/-- A write into both regions, and what is then read and found where entries overlap. -/
theorem run_of_permuted_crossed : ∃ x y, crossed.load = .ok x ∧ uncrossed.load = .ok y ∧
    let ops : List Operation := [.writeBytes 0x1001 [9, 9, 9], .getBytes 0x1000 6 none, .getFunction 0x1002, .getLine 0x1002]
    run (x.session 1) ops = run (y.session 1) ops := by
  have hpermuted : crossed.Permuted uncrossed :=
    ⟨List.reverse_perm _, List.reverse_perm _, List.reverse_perm _, rfl⟩
  have hdistinct : crossed.DistinctStarts := by
    constructor <;> decide
  have hsound : crossed.Sound := (Snapshot.flaw?_eq_none_iff crossed).1 rfl
  obtain ⟨haccepted, hruns⟩ := run_of_permuted hpermuted
  obtain ⟨x, hx⟩ := (Snapshot.exists_load_iff crossed).2 hsound
  obtain ⟨y, hy⟩ := haccepted.1 ⟨x, hx⟩
  exact ⟨x, y, hx, hy, hruns hdistinct x y hx hy 1 _⟩

end Session
end BinAtlas
