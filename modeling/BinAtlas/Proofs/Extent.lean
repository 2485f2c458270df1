import BinAtlas.Proofs.Loading

/-! The extent of regions. A write changes bytes, and neither where a region starts nor how long it is; so the least
start and the greatest end of an image are those of the regions it was loaded from. -/

namespace BinAtlas

theorem max_word_eq (a b : UInt64) : max a b = if a ≤ b then b else a := rfl

instance lawfulOrderMaxWord : Std.LawfulOrderMax UInt64 where
  max_eq_or a b := by
    rw [max_word_eq]
    split_ifs <;> simp
  max_le_iff a b c := by
    simp only [max_word_eq, UInt64.le_iff_toNat_le]
    split_ifs <;> omega

namespace Image

/-- Where the regions start, and how many bytes they have. -/
def spans (m : Image) : List (Address × Nat) := m.map fun r => (r.start, r.bytes.size)

theorem spans_set (m : Image) (a : Address) (b : UInt8) : (m.set a b).spans = m.spans := by
  induction m with
  | nil => rfl
  | cons r rs ih =>
    unfold Image.set
    split_ifs
    · simp [spans, Region.set]
    · exact congrArg ((r.start, r.bytes.size) :: ·) ih

theorem spans_storeFrom (m : Image) (a : Address) (i : Nat) (bs : List UInt8) : (m.storeFrom a i bs).spans = m.spans := by
  induction bs generalizing m i with
  | nil => rfl
  | cons b bs ih =>
    unfold storeFrom
    rcases a.plus? i with _ | p
    · rfl
    · exact (ih (m.set p b) (i + 1)).trans (m.spans_set p b)

theorem spans_patch (m : Image) (a : Address) (data : List UInt8) : (m.patch a data).2.spans = m.spans := by
  unfold patch
  split_ifs
  · exact m.spans_storeFrom a 0 data
  · rfl

theorem minStart?_eq (m : Image) : m.minStart? = (m.spans.map (·.1)).min? := by
  rw [minStart?, spans, List.map_map]
  rfl

theorem maxStop?_eq (m : Image) : m.maxStop? = (m.spans.filterMap fun p => p.1.plus? p.2).max? := by
  rw [maxStop?, spans, List.filterMap_map]
  rfl

end Image

/-- The least start of regions and their greatest end, and zero for both where there are none. -/
structure Bounds (regions : List Region) (low high : Address) : Prop where
  low_le : ∀ r ∈ regions, low ≤ r.start
  le_high : ∀ r ∈ regions, r.start.toNat + r.bytes.size ≤ high.toNat
  starts : regions ≠ [] → ∃ r ∈ regions, r.start = low
  ends : regions ≠ [] → ∃ r ∈ regions, r.start.toNat + r.bytes.size = high.toNat
  absent : regions = [] → low = 0 ∧ high = 0

namespace Bounds

theorem of_perm {l l' : List Region} {low high : Address} (h : Bounds l low high) (perm : l.Perm l') :
    Bounds l' low high := by
  have hnil : l = [] ↔ l' = [] := ⟨fun he => List.perm_nil.1 (he ▸ perm.symm), fun he => List.perm_nil.1 (he ▸ perm)⟩
  have hmem : ∀ r, r ∈ l ↔ r ∈ l' := fun r => perm.mem_iff
  obtain ⟨hlow, hhigh, hstarts, hends, habsent⟩ := h
  simp only [ne_eq, hnil, hmem] at *
  exact ⟨hlow, hhigh, hstarts, hends, habsent⟩

theorem unique {l : List Region} {low high low' high' : Address} (h : Bounds l low high) (h' : Bounds l low' high') :
    low = low' ∧ high = high' := by
  by_cases hl : l = []
  · obtain ⟨rfl, rfl⟩ := h.absent hl
    obtain ⟨rfl, rfl⟩ := h'.absent hl
    exact ⟨rfl, rfl⟩
  obtain ⟨r, hr, rfl⟩ := h.starts hl
  obtain ⟨r', hr', rfl⟩ := h'.starts hl
  obtain ⟨q, hq, hend⟩ := h.ends hl
  obtain ⟨q', hq', hend'⟩ := h'.ends hl
  refine ⟨UInt64.le_antisymm (h.low_le r' hr') (h'.low_le r hr), UInt64.toNat_inj.1 ?_⟩
  have := h.le_high q' hq'
  have := h'.le_high q hq
  omega

/-- Where every region ends in the address space, the bounds of an image are these. -/
theorem of_fits {m : Image} (fits : ∀ r ∈ m, r.start.toNat + r.bytes.size < UInt64.size) :
    Bounds m (m.minStart?.getD 0) (m.maxStop?.getD 0) := by
  have hstop : ∀ r ∈ m, ∃ p ∈ m.filterMap (·.stop?), p.toNat = r.start.toNat + r.bytes.size := by
    intro r hr
    obtain ⟨p, hp⟩ := Option.isSome_iff_exists.1 (Address.plus?_isSome_iff.2 (fits r hr))
    exact ⟨p, List.mem_filterMap.2 ⟨r, hr, hp⟩, Address.plus?_eq_some_iff.1 hp⟩
  by_cases hm : m = []
  · subst hm
    refine ⟨by simp, by simp, by simp, by simp, fun _ => ⟨rfl, rfl⟩⟩
  obtain ⟨r₀, hr₀⟩ := List.exists_mem_of_ne_nil m hm
  obtain ⟨low, hlow⟩ : ∃ low, m.minStart? = some low := by
    apply Option.ne_none_iff_exists'.1
    simp [Image.minStart?, List.min?_eq_none_iff, hm]
  obtain ⟨high, hhigh⟩ : ∃ high, m.maxStop? = some high := by
    apply Option.ne_none_iff_exists'.1
    obtain ⟨p, hp, -⟩ := hstop r₀ hr₀
    rw [Image.maxStop?, ne_eq, List.max?_eq_none_iff]
    exact List.ne_nil_of_mem hp
  rw [hlow, hhigh, Option.getD_some, Option.getD_some]
  rw [Image.minStart?, List.min?_eq_some_iff] at hlow
  rw [Image.maxStop?, List.max?_eq_some_iff] at hhigh
  refine ⟨fun r hr => hlow.2 _ (List.mem_map_of_mem hr), fun r hr => ?_, fun _ => ?_, fun _ => ?_, fun h => absurd h hm⟩
  · obtain ⟨p, hp, hpr⟩ := hstop r hr
    rw [← hpr]
    exact UInt64.le_iff_toNat_le.1 (hhigh.2 p hp)
  · simpa using hlow.1
  · obtain ⟨r, hr, hrh⟩ := List.mem_filterMap.1 hhigh.1
    exact ⟨r, hr, (Address.plus?_eq_some_iff.1 hrh).symm⟩

variable {regions : List Region} {low high : Address} (bounds : Bounds regions low high)

include bounds

theorem low_le_high : low ≤ high := by
  by_cases hm : regions = []
  · obtain ⟨rfl, rfl⟩ := bounds.absent hm
    exact UInt64.le_refl 0
  · obtain ⟨r, hr, rfl⟩ := bounds.starts hm
    have := bounds.le_high r hr
    exact UInt64.le_iff_toNat_le.2 (by omega)

theorem enclose {n : Nat} (h : Loaded regions n) : low.toNat ≤ n ∧ n < high.toNat := by
  obtain ⟨r, hr, hle, hlt⟩ := h
  have := UInt64.le_iff_toNat_le.1 (bounds.low_le r hr)
  have := bounds.le_high r hr
  omega

/-- Without empty regions the first and the last address between the bounds are loaded. -/
theorem loaded_ends (present : regions ≠ []) (filled : ∀ r ∈ regions, r.bytes ≠ #[]) :
    Loaded regions low.toNat ∧ Loaded regions (high.toNat - 1) := by
  have hsize : ∀ r ∈ regions, 0 < r.bytes.size := fun r hr => Array.size_pos_iff.2 (filled r hr)
  constructor
  · obtain ⟨r, hr, rfl⟩ := bounds.starts present
    exact ⟨r, hr, Nat.le_refl _, Nat.lt_add_of_pos_right (hsize r hr)⟩
  · obtain ⟨r, hr, hend⟩ := bounds.ends present
    have := hsize r hr
    exact ⟨r, hr, by omega, by omega⟩

end Bounds
end BinAtlas
