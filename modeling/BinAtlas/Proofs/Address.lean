import BinAtlas.Address
import Mathlib.Tactic.SplitIfs

/-! Words of 64 bits as plain numbers. The sums and differences of `Address` are those of the
numbers wherever the numbers fit, and each says what it gives where they do not. -/

namespace BinAtlas.Address

theorem toNat_lt_size (a : UInt64) : a.toNat < UInt64.size := a.toNat_lt

theorem toNat_toUInt64 {n : Nat} (h : n < UInt64.size) : n.toUInt64.toNat = n :=
  UInt64.toNat_ofNat_of_lt h

theorem toUInt64_toNat (a : UInt64) : a.toNat.toUInt64 = a := UInt64.ofNat_toNat

theorem toNat_add_of_lt {a b : UInt64} (h : a.toNat + b.toNat < UInt64.size) : (a + b).toNat = a.toNat + b.toNat := by
  rw [UInt64.toNat_add]
  exact Nat.mod_eq_of_lt h

/-- The address `n` bytes further on is the sum of the numbers; past the last word there is none. -/
theorem plus?_eq_some_iff {a p : Address} {n : Nat} : a.plus? n = some p ↔ p.toNat = a.toNat + n := by
  have hp := toNat_lt_size p
  unfold plus?
  split_ifs with h
  · have hn : n.toUInt64.toNat = n := toNat_toUInt64 (by omega)
    have hs : (a + n.toUInt64).toNat = a.toNat + n := by
      rw [toNat_add_of_lt (by omega), hn]
    rw [Option.some.injEq, ← UInt64.toNat_inj, hs]
    exact eq_comm
  · constructor
    · intro he; cases he
    · intro he; omega

theorem plus?_eq_none_iff {a : Address} {n : Nat} : a.plus? n = none ↔ UInt64.size ≤ a.toNat + n := by
  unfold plus?
  split_ifs with h
  · simp [h]
  · simpa using h

theorem plus?_isSome_iff {a : Address} {n : Nat} : (a.plus? n).isSome ↔ a.toNat + n < UInt64.size := by
  rw [← Option.ne_none_iff_isSome, ne_eq, plus?_eq_none_iff, Nat.not_le]

theorem toNat_saturatingAdd {a b : UInt64} (h : a.toNat + b.toNat < UInt64.size) :
    (saturatingAdd a b).toNat = a.toNat + b.toNat := by
  rw [saturatingAdd, if_pos h, toNat_add_of_lt h]

/-- A difference that stops at zero is the difference of natural numbers. -/
theorem toNat_saturatingSub (a b : UInt64) : (saturatingSub a b).toNat = a.toNat - b.toNat := by
  unfold saturatingSub
  split_ifs with h
  · exact UInt64.toNat_sub_of_le a b h
  · have : ¬ b.toNat ≤ a.toNat := fun hle => h (UInt64.le_iff_toNat_le.2 hle)
    rw [UInt64.toNat_zero]
    omega

/-- The word a signed distance away is the exact sum; outside the words there is none. -/
theorem shift?_eq_some_iff {a p : UInt64} {d : Int} : shift? a d = some p ↔ (p.toNat : Int) = a.toNat + d := by
  have hp := toNat_lt_size p
  simp only [shift?]
  split_ifs with h
  · have hn : ((a.toNat : Int) + d).toNat.toUInt64.toNat = ((a.toNat : Int) + d).toNat := toNat_toUInt64 (by omega)
    rw [Option.some.injEq, ← UInt64.toNat_inj, hn]
    omega
  · constructor
    · intro he; cases he
    · intro he; omega

theorem shift?_eq_none_iff {a : UInt64} {d : Int} :
    shift? a d = none ↔ ¬ (0 ≤ (a.toNat : Int) + d ∧ (a.toNat : Int) + d < UInt64.size) := by
  simp only [shift?]
  split_ifs with h
  · exact iff_of_false not_false (not_not_intro h)
  · exact iff_of_true rfl h

end BinAtlas.Address
