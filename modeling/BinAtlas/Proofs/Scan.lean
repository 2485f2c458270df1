import BinAtlas.Proofs.Literal

/-! The two scans of a string. From a number on the units that are loaded as a whole and not zero form one
stretch, however memory is laid out. A scan reads the first units of it, as many as it has turns; the
measuring scan takes the zero unit behind it, too, where there is one. -/

namespace BinAtlas.Image

open Address

/-- The unit whose first byte is at a number, if all of its bytes are loaded. -/
def unitAt (m : Image) (bigEndian : Bool) (size n : Nat) : Option Nat :=
  if ∀ i < size, (m.contentAt (n + i)).isSome then
    some (number bigEndian ((List.range size).map fun i => (m.contentAt (n + i)).getD 0))
  else none

/-- The units from a number on up to the first one that is zero or not loaded as a whole. -/
inductive Stretch (m : Image) (bigEndian : Bool) (size : Nat) : Nat → List Nat → Prop
  | ends {n : Nat} (last : ∀ u, m.unitAt bigEndian size n = some u → u = 0) : Stretch m bigEndian size n []
  | unit {n u : Nat} {us : List Nat} (first : m.unitAt bigEndian size n = some u) (nonzero : u ≠ 0)
      (rest : Stretch m bigEndian size (n + size) us) : Stretch m bigEndian size n (u :: us)

variable {m : Image} {bigEndian : Bool} {size : Nat}

theorem unitAt_eq_none_iff {n : Nat} :
    m.unitAt bigEndian size n = none ↔ ¬ ∀ i < size, (m.contentAt (n + i)).isSome := by
  unfold unitAt
  by_cases h : ∀ i < size, (m.contentAt (n + i)).isSome
  · rw [if_pos h]
    exact iff_of_false (Option.some_ne_none _) (not_not_intro h)
  · rw [if_neg h]
    exact iff_of_true rfl h

/-- A unit that is loaded begins at an address. -/
theorem lt_of_unitAt (hsize : 0 < size) {n u : Nat} (h : m.unitAt bigEndian size n = some u) : n < UInt64.size := by
  apply Nat.lt_of_not_le
  intro hle
  have hnone : m.unitAt bigEndian size n = none := by
    rw [unitAt_eq_none_iff]
    intro hall
    have hfirst := hall 0 hsize
    rw [Nat.add_zero, contentAt_of_le m hle] at hfirst
    cases hfirst
  rw [hnone] at h
  cases h

/-- The unit that a host reads at a place is the one at its number. -/
theorem unit?_eq (hsize : 0 < size) (a : Address) (i : Nat) :
    m.unit? bigEndian a size i = m.unitAt bigEndian size (a.toNat + i) := by
  unfold unit?
  cases hp : a.plus? i with
  | none =>
    cases hu : m.unitAt bigEndian size (a.toNat + i) with
    | none => rfl
    | some u =>
      have hlt := lt_of_unitAt hsize hu
      have hle := plus?_eq_none_iff.1 hp
      omega
  | some p =>
    have hplace := plus?_eq_some_iff.1 hp
    rw [Option.bind_some, read_eq, hplace]
    unfold unitAt
    by_cases hall : ∀ j < size, (m.contentAt (a.toNat + i + j)).isSome
    · have hloaded : m.loaded p size := by
        rw [loaded_iff, hplace]
        exact hall
      rw [if_pos hloaded, if_pos hall]
    · have hloaded : ¬ m.loaded p size := by
        rw [loaded_iff, hplace]
        exact hall
      rw [if_neg hloaded, if_neg hall]

/-- Units are loaded only before the end of the address space, so every stretch ends. -/
theorem exists_stretch (m : Image) (bigEndian : Bool) (hsize : 0 < size) (n : Nat) :
    ∃ us, m.Stretch bigEndian size n us := by
  cases hu : m.unitAt bigEndian size n with
  | none => exact ⟨[], .ends (by simp [hu])⟩
  | some u =>
    by_cases hzero : u = 0
    · exact ⟨[], .ends (by simp [hu, hzero])⟩
    · have hlt := lt_of_unitAt hsize hu
      obtain ⟨us, hus⟩ := exists_stretch m bigEndian hsize (n + size)
      exact ⟨u :: us, .unit hu hzero hus⟩
termination_by UInt64.size - n

theorem Stretch.unique {n : Nat} {us vs : List Nat} (hu : m.Stretch bigEndian size n us)
    (hv : m.Stretch bigEndian size n vs) : us = vs := by
  induction hu generalizing vs with
  | ends last =>
    cases hv with
    | ends => rfl
    | unit first nonzero => exact absurd (last _ first) nonzero
  | unit first nonzero rest ih =>
    cases hv with
    | ends last => exact absurd (last _ first) nonzero
    | unit first' _ rest' =>
      rw [first] at first'
      rw [Option.some.inj first', ih rest']

/-- The bytes of a stretch and of the zero unit behind it, if there is one. -/
def extent (m : Image) (bigEndian : Bool) (size n : Nat) (us : List Nat) : Nat :=
  if m.unitAt bigEndian size (n + size * us.length) = some 0 then size * us.length + size else size * us.length

theorem extent_cons (n u : Nat) (us : List Nat) :
    m.extent bigEndian size n (u :: us) = size + m.extent bigEndian size (n + size) us := by
  have hend : n + size * (u :: us).length = n + size + size * us.length := by
    rw [List.length_cons, Nat.mul_succ]
    omega
  unfold extent
  rw [hend, List.length_cons, Nat.mul_succ]
  split_ifs
  · omega
  · omega

section Scans

variable (hsize : 0 < size) {a : Address}

include hsize

/-- The reading scan gives the first units of the stretch. -/
theorem units_eq_take {i : Nat} {us : List Nat} (h : m.Stretch bigEndian size (a.toNat + i) us) (turns : Nat) :
    m.units bigEndian a size i turns = us.take turns := by
  induction turns generalizing i us with
  | zero => rfl
  | succ turns ih =>
    rw [units, unit?_eq hsize]
    cases h with
    | ends last =>
      cases hu : m.unitAt bigEndian size (a.toNat + i) with
      | none => rfl
      | some u => simp [last u hu]
    | unit first nonzero rest =>
      rw [Nat.add_assoc] at rest
      simp [first, nonzero, ih rest]

/-- The measuring scan stops at the end of the extent or of its turns. -/
theorem measure_eq_min {i : Nat} {us : List Nat} (h : m.Stretch bigEndian size (a.toNat + i) us) (turns : Nat) :
    m.measure bigEndian a size i turns = i + min (size * turns) (m.extent bigEndian size (a.toNat + i) us) := by
  induction turns generalizing i us with
  | zero => simp [measure]
  | succ turns ih =>
    rw [measure, unit?_eq hsize, Nat.mul_succ]
    cases h with
    | ends last =>
      unfold extent
      rw [List.length_nil, Nat.mul_zero, Nat.add_zero]
      cases hu : m.unitAt bigEndian size (a.toNat + i) with
      | none => simp
      | some u =>
        obtain rfl := last u hu
        simp
    | unit first nonzero rest =>
      rw [Nat.add_assoc] at rest
      rw [extent_cons, first]
      simp only [if_neg nonzero, ih rest, Nat.add_assoc]
      omega

end Scans

section Host

variable {kind : StringKind} {a : Address} {us : List Nat} (h : m.Stretch bigEndian kind.size a.toNat us)

include h

theorem stringLength_eq_min :
    m.stringLength bigEndian a kind = min longestString (m.extent bigEndian kind.size a.toNat us) := by
  have hsize : 0 < kind.size := by cases kind <;> decide
  have hwhole : kind.size * (longestString / kind.size) = longestString := by cases kind <;> rfl
  rw [stringLength, measure_eq_min hsize (i := 0) h, hwhole, Nat.zero_add, Nat.add_zero]

/-- A string is read where its first unit is loaded and the length has room for it. -/
theorem stringContents_eq (length : Nat) :
    m.stringContents bigEndian a length kind =
      if length < kind.size ∨ m.unitAt bigEndian kind.size a.toNat = none then none
      else some (spell kind (us.take (length / kind.size))) := by
  have hsize : 0 < kind.size := by cases kind <;> decide
  have hunits := units_eq_take hsize (i := 0) h (length / kind.size)
  have hloaded : (m.loaded a kind.size = false) ↔ m.unitAt bigEndian kind.size a.toNat = none := by
    rw [unitAt_eq_none_iff, ← loaded_iff, Bool.not_eq_true]
  unfold stringContents
  rw [hunits]
  simp [hloaded]

/-- The measured length has room for as many units of the stretch as the longest string. -/
theorem take_stringLength :
    us.take (m.stringLength bigEndian a kind / kind.size) = us.take (longestString / kind.size) := by
  have hsize : 0 < kind.size := by cases kind <;> decide
  have hlimit : longestString = kind.size * (longestString / kind.size) := by cases kind <;> rfl
  have hextent : ∃ n, us.length ≤ n ∧ m.extent bigEndian kind.size a.toNat us = kind.size * n := by
    unfold extent
    split_ifs
    · exact ⟨us.length + 1, Nat.le_succ _, rfl⟩
    · exact ⟨us.length, Nat.le_refl _, rfl⟩
  obtain ⟨n, hn, hbytes⟩ := hextent
  have hturns : m.stringLength bigEndian a kind / kind.size = min (longestString / kind.size) n := by
    calc m.stringLength bigEndian a kind / kind.size
        = min (kind.size * (longestString / kind.size)) (kind.size * n) / kind.size := by
          rw [stringLength_eq_min h, hbytes, ← hlimit]
      _ = min (longestString / kind.size) n := by
          rw [Nat.mul_min_mul_left, Nat.mul_div_cancel_left _ hsize]
  rw [hturns, List.take_eq_take_iff]
  omega

/-- What is loaded of the first unit is measured, be the unit zero or not. -/
theorem size_le_stringLength (hfirst : m.unitAt bigEndian kind.size a.toNat ≠ none) :
    kind.size ≤ m.stringLength bigEndian a kind := by
  have hlong : kind.size ≤ longestString := by cases kind <;> decide
  rw [stringLength_eq_min h]
  apply Nat.le_min_of_le_of_le hlong
  cases h with
  | ends last =>
    obtain ⟨u, hu⟩ := Option.ne_none_iff_exists'.1 hfirst
    obtain rfl := last u hu
    simp [extent, hu]
  | unit first nonzero rest =>
    rw [extent_cons]
    exact Nat.le_add_right _ _

/-- A string is read in its measured length as it is in the longest one. -/
theorem stringContents_stringLength :
    m.stringContents bigEndian a (m.stringLength bigEndian a kind) kind =
      m.stringContents bigEndian a longestString kind := by
  have hlong : ¬ longestString < kind.size := by cases kind <;> decide
  rw [stringContents_eq h, stringContents_eq h, take_stringLength h]
  by_cases hfirst : m.unitAt bigEndian kind.size a.toNat = none
  · rw [if_pos (.inr hfirst), if_pos (.inr hfirst)]
  · have hmeasured := Nat.not_lt.2 (size_le_stringLength h hfirst)
    rw [if_neg (not_or_intro hmeasured hfirst), if_neg (not_or_intro hlong hfirst)]

end Host
end BinAtlas.Image
