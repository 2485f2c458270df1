import BinAtlas.Image
import BinAtlas.Proofs.Address

/-! An image as a partial function from numbers to bytes. Reading, the loaded check and writing
are told by `contentAt` alone, so no later proof looks at regions or at how they overlap. -/

namespace BinAtlas

open Address

namespace Region

theorem covers_iff {r : Region} {a : Address} :
    r.covers a ↔ r.start.toNat ≤ a.toNat ∧ a.toNat < r.start.toNat + r.bytes.size := by
  unfold covers
  rw [Bool.and_eq_true, decide_eq_true_eq, decide_eq_true_eq, UInt64.le_iff_toNat_le]
  refine and_congr_right fun h => ?_
  rw [UInt64.toNat_sub_of_le a r.start (UInt64.le_iff_toNat_le.2 h)]
  omega

theorem byte?_eq (r : Region) (a : Address) :
    r.byte? a = if r.start.toNat ≤ a.toNat then r.bytes[a.toNat - r.start.toNat]? else none := by
  unfold byte?
  by_cases h : r.start ≤ a
  · rw [if_pos h, if_pos (UInt64.le_iff_toNat_le.1 h), UInt64.toNat_sub_of_le a r.start h]
  · rw [if_neg h, if_neg fun hn => h (UInt64.le_iff_toNat_le.2 hn)]

theorem byte?_eq_none {r : Region} {a : Address} (h : ¬ r.covers a) : r.byte? a = none := by
  rw [covers_iff] at h
  rw [byte?_eq]
  split_ifs
  · exact Array.getElem?_eq_none (by omega)
  · rfl

theorem exists_byte? {r : Region} {a : Address} (h : r.covers a) : ∃ b, r.byte? a = some b := by
  obtain ⟨hle, hlt⟩ := covers_iff.1 h
  rw [byte?_eq, if_pos hle]
  exact ⟨_, Array.getElem?_eq_getElem (by omega)⟩

theorem byte?_set_same {r : Region} {a : Address} (b : UInt8) (h : r.covers a) : (r.set a b).byte? a = some b := by
  obtain ⟨hle, hlt⟩ := covers_iff.1 h
  have hplace := UInt64.toNat_sub_of_le a r.start (UInt64.le_iff_toNat_le.2 hle)
  rw [byte?_eq, set, if_pos hle, hplace]
  exact Array.getElem?_setIfInBounds_self_of_lt (by omega)

/-- Addresses after the start of a region have different places in it. -/
theorem byte?_set_of_ne {r : Region} {a x : Address} (b : UInt8) (h : r.covers a) (hne : x ≠ a) :
    (r.set a b).byte? x = r.byte? x := by
  obtain ⟨hle, hlt⟩ := covers_iff.1 h
  have hplace := UInt64.toNat_sub_of_le a r.start (UInt64.le_iff_toNat_le.2 hle)
  have hx : x.toNat ≠ a.toNat := fun he => hne (UInt64.toNat_inj.1 he)
  simp only [byte?_eq, set, hplace]
  by_cases hs : r.start.toNat ≤ x.toNat
  · rw [if_pos hs, if_pos hs, Array.getElem?_setIfInBounds_ne (by omega)]
  · rw [if_neg hs, if_neg hs]

end Region

namespace Image

theorem byte?_cons (r : Region) (m : Image) (a : Address) : byte? (r :: m) a = (r.byte? a).or (byte? m a) := by
  unfold byte?
  rw [List.findSome?_cons]
  cases r.byte? a <;> rfl

/-- Storing a byte changes the content of its own address, where there is any, and no other. -/
theorem byte?_set (m : Image) (a x : Address) (b : UInt8) :
    (m.set a b).byte? x = if x = a then (m.byte? a).map fun _ => b else m.byte? x := by
  induction m with
  | nil => simp [Image.set, byte?]
  | cons r rs ih =>
    unfold Image.set
    split_ifs with hc hx hx
    · subst hx
      obtain ⟨c, hr⟩ := Region.exists_byte? hc
      rw [byte?_cons, byte?_cons, Region.byte?_set_same b hc, hr]
      rfl
    · rw [byte?_cons, byte?_cons, Region.byte?_set_of_ne b hc hx]
    · subst hx
      rw [byte?_cons, byte?_cons, Region.byte?_eq_none hc, ih, if_pos rfl]
      rfl
    · rw [byte?_cons, byte?_cons, ih, if_neg hx]

/-- The byte at a number; a number that is no address has none. -/
def contentAt (m : Image) (n : Nat) : Option UInt8 := if n < UInt64.size then m.byte? n.toUInt64 else none

theorem contentAt_toNat (m : Image) (a : Address) : m.contentAt a.toNat = m.byte? a := by
  rw [contentAt, if_pos (toNat_lt_size a), toUInt64_toNat]

theorem contentAt_of_le (m : Image) {n : Nat} (h : UInt64.size ≤ n) : m.contentAt n = none :=
  if_neg (Nat.not_lt.2 h)

theorem at?_eq (m : Image) (a : Address) (i : Nat) : m.at? a i = m.contentAt (a.toNat + i) := by
  unfold at?
  cases h : a.plus? i with
  | none => exact (m.contentAt_of_le (plus?_eq_none_iff.1 h)).symm
  | some p =>
    rw [← plus?_eq_some_iff.1 h, contentAt_toNat]
    rfl

theorem loadedFrom_iff (m : Image) (a : Address) (n i : Nat) :
    m.loadedFrom a i n ↔ ∀ j < n, (m.contentAt (a.toNat + i + j)).isSome := by
  induction n generalizing i with
  | zero => simp [loadedFrom]
  | succ n ih =>
    rw [loadedFrom, Bool.and_eq_true, at?_eq, ih (i + 1)]
    constructor
    · rintro ⟨h0, hrest⟩ j hj
      cases j with
      | zero => exact h0
      | succ j => simpa only [Nat.add_assoc, Nat.add_comm 1 j] using hrest j (by omega)
    · intro h
      refine ⟨h 0 (Nat.succ_pos n), fun j hj => ?_⟩
      simpa only [Nat.add_assoc, Nat.add_comm 1 j] using h (j + 1) (by omega)

theorem loaded_iff (m : Image) (a : Address) (n : Nat) :
    m.loaded a n ↔ ∀ i < n, (m.contentAt (a.toNat + i)).isSome :=
  m.loadedFrom_iff a n 0

theorem read_eq (m : Image) (a : Address) (n : Nat) (fill : UInt8) :
    m.read a n fill = (List.range n).map fun i => (m.contentAt (a.toNat + i)).getD fill := by
  simp only [read, at?_eq]

theorem length_read (m : Image) (a : Address) (n : Nat) (fill : UInt8) : (m.read a n fill).length = n := by
  rw [read_eq, List.length_map, List.length_range]

end Image

/-- Bytes for consecutive numbers. -/
structure Patch where
  start : Nat
  bytes : List UInt8

/-- The byte that a patch has for a number. -/
def Patch.byteAt? (p : Patch) (n : Nat) : Option UInt8 :=
  if p.start ≤ n then p.bytes[n - p.start]? else none

namespace Patch

theorem byteAt?_of_lt (p : Patch) {n : Nat} (h : n < p.start) : p.byteAt? n = none := if_neg (Nat.not_le.2 h)

theorem byteAt?_of_le (p : Patch) {n : Nat} (h : p.start + p.bytes.length ≤ n) : p.byteAt? n = none := by
  unfold byteAt?
  split_ifs
  · exact List.getElem?_eq_none (by omega)
  · rfl

theorem byteAt?_nil (s n : Nat) : byteAt? ⟨s, []⟩ n = none := by
  unfold byteAt?
  split_ifs <;> rfl

theorem byteAt?_cons (s n : Nat) (b : UInt8) (bs : List UInt8) :
    byteAt? ⟨s, b :: bs⟩ n = if n = s then some b else byteAt? ⟨s + 1, bs⟩ n := by
  simp only [byteAt?]
  by_cases hlt : n < s
  · rw [if_neg (by omega), if_neg (by omega), if_neg (by omega)]
  by_cases he : n = s
  · subst he
    simp
  · obtain ⟨k, rfl⟩ : ∃ k, n = s + 1 + k := ⟨n - (s + 1), by omega⟩
    rw [if_pos (by omega), if_neg he, if_pos (by omega), show s + 1 + k - s = k + 1 by omega,
      show s + 1 + k - (s + 1) = k by omega, List.getElem?_cons_succ]

end Patch

namespace Image

/-- A write lays its bytes over the loaded ones; where nothing is loaded it leaves nothing. -/
theorem contentAt_storeFrom (m : Image) (a : Address) (i : Nat) (bs : List UInt8) (n : Nat) :
    (m.storeFrom a i bs).contentAt n = (m.contentAt n).map fun b => (Patch.byteAt? ⟨a.toNat + i, bs⟩ n).getD b := by
  induction bs generalizing m i with
  | nil => simp [storeFrom, Patch.byteAt?_nil]
  | cons b bs ih =>
    unfold storeFrom
    cases h : a.plus? i with
    | none =>
      -- past the last address there is neither a byte to change nor a content
      have hs := plus?_eq_none_iff.1 h
      by_cases hn : n < UInt64.size
      · rw [Patch.byteAt?_of_lt _ (by simpa using by omega)]
        simp
      · simp [m.contentAt_of_le (Nat.not_lt.1 hn)]
    | some p =>
      have hp := plus?_eq_some_iff.1 h
      simp only [ih, Patch.byteAt?_cons, ← Nat.add_assoc]
      by_cases hn : n < UInt64.size
      · obtain ⟨x, rfl⟩ : ∃ x : Address, n = x.toNat := ⟨n.toUInt64, (toNat_toUInt64 hn).symm⟩
        rw [contentAt_toNat, contentAt_toNat, byte?_set, ← hp]
        by_cases hx : x = p
        · subst hx
          rw [Patch.byteAt?_of_lt _ (Nat.lt_succ_self _)]
          cases m.byte? x <;> simp
        · rw [if_neg hx, if_neg fun he => hx (UInt64.toNat_inj.1 he)]
      · simp [contentAt_of_le _ (Nat.not_lt.1 hn)]

theorem patch_fst (m : Image) (a : Address) (data : List UInt8) : (m.patch a data).1 = m.loaded a data.length := by
  unfold patch
  split_ifs with h
  · exact h.symm
  · exact (Bool.not_eq_true _ ▸ h).symm

/-- A write that is refused leaves every region as it is. -/
theorem patch_of_not_loaded {m : Image} {a : Address} {data : List UInt8} (h : ¬ m.loaded a data.length) :
    m.patch a data = (false, m) := if_neg h

theorem contentAt_patch {m : Image} {a : Address} {data : List UInt8} (h : m.loaded a data.length) (n : Nat) :
    (m.patch a data).2.contentAt n = (m.contentAt n).map fun b => (Patch.byteAt? ⟨a.toNat, data⟩ n).getD b := by
  rw [patch, if_pos h]
  exact m.contentAt_storeFrom a 0 data n

end Image
end BinAtlas
