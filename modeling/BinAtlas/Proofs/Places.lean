import BinAtlas.Host.Stored
import BinAtlas.Proofs.Address
import BinAtlas.View.Functions
import Mathlib.Data.List.Pairwise
import Mathlib.Order.CompletePartialOrder
import Mathlib.Order.Interval.Set.Disjoint

/-! Where the entries of a table lie. Each takes up a range of numbers; where no two ranges of a table
meet, the entry found first around a word is the only one around it, so the order of the table does
not matter. -/

namespace BinAtlas

/-- A comparison and a difference of words tell whether a word lies in a range. -/
theorem within_iff {start size a : UInt64} :
    (start ≤ a && a - start < size) = true ↔ a.toNat ∈ Set.Ico start.toNat (start.toNat + size.toNat) := by
  rw [Bool.and_eq_true, decide_eq_true_eq, decide_eq_true_eq, UInt64.le_iff_toNat_le, UInt64.lt_iff_toNat_lt, Set.mem_Ico]
  refine and_congr_right fun h => ?_
  rw [UInt64.toNat_sub_of_le a start (UInt64.le_iff_toNat_le.2 h)]
  omega

namespace FileRegion

def addresses (r : FileRegion) : Set Nat := Set.Ico r.address.toNat (r.address.toNat + r.size.toNat)

def offsets (r : FileRegion) : Set Nat := Set.Ico r.offset.toNat (r.offset.toNat + r.size.toNat)

theorem coversAddress_iff {r : FileRegion} {a : Address} : r.coversAddress a ↔ a.toNat ∈ r.addresses := within_iff

theorem coversOffset_iff {r : FileRegion} {o : UInt64} : r.coversOffset o ↔ o.toNat ∈ r.offsets := within_iff

end FileRegion

namespace Item

/-- An item without a size takes up a byte. -/
def places (i : Item) : Set Nat := Set.Ico i.address.toNat (i.address.toNat + max i.size.toNat 1)

theorem toNat_extent (i : Item) : i.extent.toNat = max i.size.toNat 1 := by
  unfold extent
  by_cases h : i.size = 0
  · rw [if_pos h, h]
    rfl
  · have hpos : i.size.toNat ≠ 0 := fun hn => h (UInt64.toNat_inj.1 hn)
    rw [if_neg h]
    omega

theorem covers_iff {i : Item} {a : Address} : i.covers a ↔ a.toNat ∈ i.places := by
  rw [places, ← toNat_extent]
  exact within_iff

theorem address_mem_places (i : Item) : i.address.toNat ∈ i.places := by
  simp [places]

/-- An address is in an item of the list or in a gap. -/
theorem around_or_gap (items : List Item) (a : Address) :
    (∃ i ∈ items, a.toNat ∈ i.places) ∨ ∀ i ∈ items, a.toNat ∉ i.places := by
  by_cases h : ∃ i ∈ items, a.toNat ∈ i.places
  · exact .inl h
  · exact .inr fun i hi ha => h ⟨i, hi, ha⟩

end Item

namespace FunctionEntry

def body (f : FunctionEntry) : Set Nat := Set.Ico f.start.toNat f.stop.toNat

theorem mem_body_iff {f : FunctionEntry} {a : Address} : a.toNat ∈ f.body ↔ f.contains a := by
  simp [body, contains, UInt64.le_iff_toNat_le, UInt64.lt_iff_toNat_lt]

/-- A function without a body is still found at its start. -/
theorem covers_iff {f : FunctionEntry} (h : f.start < f.stop) {a : Address} : f.covers a ↔ a.toNat ∈ f.body := by
  rw [UInt64.lt_iff_toNat_lt] at h
  simp only [covers, body, Set.mem_Ico, Bool.or_eq_true, Bool.and_eq_true, beq_iff_eq, decide_eq_true_eq,
    UInt64.lt_iff_toNat_lt, ← UInt64.toNat_inj]
  omega

end FunctionEntry

variable {α : Type} {place : α → Set Nat} {l l' : List α}

/-- No number lies in two entries of the list. -/
def Apart (place : α → Set Nat) (l : List α) : Prop := l.Pairwise fun a b => Disjoint (place a) (place b)

theorem Apart.perm (h : Apart place l) (hl : l'.Perm l) : Apart place l' := hl.symm.pairwise h fun hd => hd.symm

/-- Two entries around one number are the same. -/
theorem Apart.eq_of_mem (h : Apart place l) {n : Nat} {a b : α} (ha : a ∈ l) (hb : b ∈ l) (hna : n ∈ place a)
    (hnb : n ∈ place b) : a = b := by
  have hsymm : Std.Symm fun a b => Disjoint (place a) (place b) := ⟨fun _ _ hd => hd.symm⟩
  by_contra hne
  exact Set.disjoint_left.1 (List.Pairwise.forall h ha hb hne) hna hnb

/-- What is found first around a number is the one entry around it. -/
theorem Apart.find?_eq_some_iff (h : Apart place l) {p : α → Bool} {n : Nat} (hp : ∀ a ∈ l, p a ↔ n ∈ place a) {a : α} :
    l.find? p = some a ↔ a ∈ l ∧ n ∈ place a := by
  constructor
  · intro hfind
    have ha := List.mem_of_find?_eq_some hfind
    exact ⟨ha, (hp a ha).1 (List.find?_some hfind)⟩
  · rintro ⟨ha, hn⟩
    obtain ⟨b, hfind⟩ := Option.isSome_iff_exists.1 (List.find?_isSome.2 ⟨a, ha, (hp a ha).2 hn⟩)
    have hb := List.mem_of_find?_eq_some hfind
    have hnb := (hp b hb).1 (List.find?_some hfind)
    rw [hfind, h.eq_of_mem hb ha hnb hn]

end BinAtlas
