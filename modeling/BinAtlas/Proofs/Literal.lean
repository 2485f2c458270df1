import BinAtlas.Host.Stored
import BinAtlas.Proofs.Image
import Mathlib.Algebra.Group.Nat.Defs
import Mathlib.Tactic.SplitIfs

/-! String literals in memory. Where an image holds the bytes of units in its byte order and a zero unit
after them, both scans of a host come to the end of the last unit. -/

namespace BinAtlas

open Address

/-- The lowest bytes of a number, the lowest one first. -/
def littleEndian : Nat → Nat → List UInt8
  | 0, _ => []
  | size + 1, n => n.toUInt8 :: littleEndian size (n / 256)

/-- A unit in the bytes of a byte order. -/
def unitBytes (bigEndian : Bool) (size unit : Nat) : List UInt8 :=
  if bigEndian then (littleEndian size unit).reverse else littleEndian size unit

/-- Units one after another. -/
def literal (bigEndian : Bool) (size : Nat) (units : List Nat) : List UInt8 := units.flatMap (unitBytes bigEndian size)

theorem length_littleEndian (size n : Nat) : (littleEndian size n).length = size := by
  induction size generalizing n with
  | zero => rfl
  | succ size ih => rw [littleEndian, List.length_cons, ih]

theorem length_unitBytes (bigEndian : Bool) (size unit : Nat) : (unitBytes bigEndian size unit).length = size := by
  unfold unitBytes
  split_ifs
  · rw [List.length_reverse, length_littleEndian]
  · exact length_littleEndian size unit

theorem length_literal (bigEndian : Bool) (size : Nat) (units : List Nat) :
    (literal bigEndian size units).length = units.length * size := by
  induction units with
  | nil => rw [literal, List.flatMap_nil, List.length_nil, List.length_nil, Nat.zero_mul]
  | cons u us ih =>
    change (unitBytes bigEndian size u ++ literal bigEndian size us).length = _
    rw [List.length_append, length_unitBytes, ih, List.length_cons, Nat.succ_mul, Nat.add_comm]

theorem foldr_littleEndian (size n : Nat) :
    (littleEndian size n).foldr (fun b m => m * 256 + b.toNat) 0 = n % 256 ^ size := by
  induction size generalizing n with
  | zero => rw [littleEndian, List.foldr_nil, Nat.pow_zero, Nat.mod_one]
  | succ size ih =>
    rw [littleEndian, List.foldr_cons, ih, Nat.pow_succ', Nat.mod_mul]
    change _ + n % 256 = _
    omega

/-- A unit is the number that its bytes write. -/
theorem number_unitBytes (bigEndian : Bool) {size unit : Nat} (h : unit < 256 ^ size) :
    number bigEndian (unitBytes bigEndian size unit) = unit := by
  have hdigits : (if bigEndian then unitBytes bigEndian size unit else (unitBytes bigEndian size unit).reverse) =
      (littleEndian size unit).reverse := by
    unfold unitBytes
    cases bigEndian <;> rfl
  rw [number, hdigits, List.foldl_reverse, foldr_littleEndian, Nat.mod_eq_of_lt h]

theorem unitBytes_zero (bigEndian : Bool) (size : Nat) : unitBytes bigEndian size 0 = List.replicate size 0 := by
  have h : littleEndian size 0 = List.replicate size 0 := by
    induction size with
    | zero => rfl
    | succ size ih =>
      rw [littleEndian, Nat.zero_div, ih]
      rfl
  unfold unitBytes
  rw [h, List.reverse_replicate, ite_self]

theorem literal_one (bigEndian : Bool) (bs : List UInt8) : literal bigEndian 1 (bs.map (·.toNat)) = bs := by
  have hbyte : ∀ b : UInt8, unitBytes bigEndian 1 b.toNat = [b] := by
    intro b
    have h : littleEndian 1 b.toNat = [b] := by
      rw [littleEndian, littleEndian, show b.toNat.toUInt8 = b from UInt8.ofNat_toNat]
    unfold unitBytes
    rw [h, List.reverse_singleton, ite_self]
  rw [literal, List.flatMap_map]
  simp only [hbyte]
  exact List.flatMap_singleton' bs

namespace Image

/-- The bytes are there from a number on. -/
def Holds (m : Image) (n : Nat) (bs : List UInt8) : Prop := ∀ i b, bs[i]? = some b → m.contentAt (n + i) = some b

variable {m : Image} {a : Address}

theorem Holds.append_left {n : Nat} {xs ys : List UInt8} (h : m.Holds n (xs ++ ys)) : m.Holds n xs := by
  intro i b hb
  have hi := (List.getElem?_eq_some_iff.1 hb).1
  exact h i b (by rw [List.getElem?_append_left hi, hb])

theorem Holds.append_right {n : Nat} {xs ys : List UInt8} (h : m.Holds n (xs ++ ys)) : m.Holds (n + xs.length) ys := by
  intro i b hb
  rw [Nat.add_assoc]
  exact h (xs.length + i) b (by rw [List.getElem?_append_right (by omega), Nat.add_sub_cancel_left, hb])

theorem holds_patch {data : List UInt8} (h : m.loaded a data.length) : (m.patch a data).2.Holds a.toNat data := by
  intro i b hb
  have hi := (List.getElem?_eq_some_iff.1 hb).1
  obtain ⟨c, hc⟩ := Option.isSome_iff_exists.1 ((m.loaded_iff a data.length).1 h i hi)
  have hbyte : Patch.byteAt? ⟨a.toNat, data⟩ (a.toNat + i) = some b := by
    rw [Patch.byteAt?, if_pos (Nat.le_add_right _ _), Nat.add_sub_cancel_left, hb]
  rw [contentAt_patch h, hc, Option.map_some, hbyte, Option.getD_some]

theorem read_of_holds {p : Address} {bs : List UInt8} (h : m.Holds p.toNat bs) (fill : UInt8) :
    m.read p bs.length fill = bs := by
  refine List.ext_getElem (m.length_read p _ _) fun i h1 h2 => ?_
  simp only [read_eq, List.getElem_map, List.getElem_range, h i bs[i] (List.getElem?_eq_getElem h2), Option.getD_some]

theorem loaded_of_holds {p : Address} {bs : List UInt8} (h : m.Holds p.toNat bs) : m.loaded p bs.length := by
  rw [loaded_iff]
  intro i hi
  rw [h i bs[i] (List.getElem?_eq_getElem hi)]
  rfl

section Scans

variable {bigEndian : Bool} {size : Nat}

theorem unit?_of_holds (hsize : 0 < size) {u i : Nat} (hu : u < 256 ^ size)
    (h : m.Holds (a.toNat + i) (unitBytes bigEndian size u)) : m.unit? bigEndian a size i = some u := by
  have hlength := length_unitBytes bigEndian size u
  have hfits : a.toNat + i < UInt64.size := by
    refine Nat.lt_of_not_le fun hle => ?_
    have hfirst := h 0 _ (List.getElem?_eq_getElem (by omega))
    rw [Nat.add_zero, contentAt_of_le m hle] at hfirst
    cases hfirst
  obtain ⟨p, hp⟩ := Option.isSome_iff_exists.1 (plus?_isSome_iff.2 hfits)
  rw [← plus?_eq_some_iff.1 hp] at h
  have hloaded := loaded_of_holds h
  have hread := read_of_holds h 0
  rw [hlength] at hloaded hread
  rw [unit?, hp, Option.bind_some, if_pos hloaded, hread, number_unitBytes bigEndian hu]

variable (hsize : 0 < size) {us : List Nat} (hus : ∀ u ∈ us, u ≠ 0 ∧ u < 256 ^ size)

include hsize hus

theorem units_of_holds {i n : Nat} (hn : us.length ≤ n)
    (h : m.Holds (a.toNat + i) (literal bigEndian size us ++ unitBytes bigEndian size 0)) :
    m.units bigEndian a size i n = us := by
  induction us generalizing i n with
  | nil =>
    cases n with
    | zero => rfl
    | succ n => rw [units, unit?_of_holds hsize (Nat.pow_pos (by decide)) h]; rfl
  | cons u us ih =>
    obtain ⟨hu, hus⟩ := List.forall_mem_cons.1 hus
    cases n with
    | zero => cases hn
    | succ n =>
      change m.Holds _ (unitBytes bigEndian size u ++ literal bigEndian size us ++ _) at h
      rw [List.append_assoc] at h
      have hrest := h.append_right
      rw [length_unitBytes, Nat.add_assoc] at hrest
      rw [units, unit?_of_holds hsize hu.2 h.append_left]
      simp only [if_neg hu.1, ih hus (Nat.le_of_succ_le_succ hn) hrest]

/-- The terminator is measured, too, if there is a turn left for it. -/
theorem measure_of_holds {i n : Nat}
    (h : m.Holds (a.toNat + i) (literal bigEndian size us ++ unitBytes bigEndian size 0)) :
    m.measure bigEndian a size i n = i + min n (us.length + 1) * size := by
  induction us generalizing i n with
  | nil =>
    cases n with
    | zero => simp [measure]
    | succ n =>
      rw [measure, unit?_of_holds hsize (Nat.pow_pos (by decide)) h]
      simp
  | cons u us ih =>
    obtain ⟨hu, hus⟩ := List.forall_mem_cons.1 hus
    cases n with
    | zero => simp [measure]
    | succ n =>
      change m.Holds _ (unitBytes bigEndian size u ++ literal bigEndian size us ++ _) at h
      rw [List.append_assoc] at h
      have hrest := h.append_right
      rw [length_unitBytes, Nat.add_assoc] at hrest
      rw [measure, unit?_of_holds hsize hu.2 h.append_left]
      simp only [if_neg hu.1, ih hus hrest, List.length_cons, Nat.add_min_add_right, Nat.succ_mul]
      omega

end Scans

section Host

variable {bigEndian : Bool} {kind : StringKind} {us : List Nat} (hus : ∀ u ∈ us, u ≠ 0 ∧ u < 256 ^ kind.size)
  (h : m.Holds a.toNat (literal bigEndian kind.size us ++ unitBytes bigEndian kind.size 0))

include hus h

/-- Any length is enough that has room for the units and for one at least. -/
theorem stringContents_of_holds {n : Nat} (hlong : us.length * kind.size ≤ n) (hone : kind.size ≤ n) :
    m.stringContents bigEndian a n kind = some (spell kind us) := by
  have hsize : 0 < kind.size := by cases kind <;> decide
  have hturns : us.length ≤ n / kind.size := (Nat.le_div_iff_mul_le hsize).2 hlong
  have hloaded : m.loaded a kind.size := by
    have hall := loaded_of_holds h
    rw [loaded_iff] at hall ⊢
    intro i hi
    refine hall i ?_
    rw [List.length_append, length_unitBytes]
    omega
  rw [stringContents, if_neg (by simp [hloaded, hone]), units_of_holds hsize hus hturns h]

/-- The measured length has room for the units, the last of which may end at the limit. -/
theorem stringLength_of_holds (hlimit : us.length * kind.size ≤ longestString) :
    us.length * kind.size ≤ m.stringLength bigEndian a kind ∧ kind.size ≤ m.stringLength bigEndian a kind := by
  have hsize : 0 < kind.size := by cases kind <;> decide
  have hone : 1 ≤ longestString / kind.size := by cases kind <;> decide
  have hturns : us.length ≤ longestString / kind.size := (Nat.le_div_iff_mul_le hsize).2 hlimit
  rw [stringLength, measure_of_holds hsize hus h, Nat.zero_add]
  refine ⟨Nat.mul_le_mul_right _ (by omega), ?_⟩
  exact Nat.le_mul_of_pos_left _ (by omega)

end Host

end Image
end BinAtlas
