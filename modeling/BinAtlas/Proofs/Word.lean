import BinAtlas.Proofs.Image
import Mathlib.Data.Nat.Digits.Lemmas

/-! Words made of bytes. A host shifts bytes in from the right, the first or the last one first. As long as
they are eight at most no bit is shifted out, and the word is the number that the bytes write in base 256. -/

namespace BinAtlas

/-- The number of bytes that stand for digits in base 256: the first byte has the highest place, or the lowest. -/
def positional (bigEndian : Bool) (bytes : List UInt8) : Nat :=
  Nat.ofDigits 256 ((if bigEndian then bytes.reverse else bytes).map (·.toNat))

theorem positional_lt (bigEndian : Bool) (bytes : List UInt8) : positional bigEndian bytes < 256 ^ bytes.length := by
  unfold positional
  have hlength : ((if bigEndian then bytes.reverse else bytes).map (·.toNat)).length = bytes.length := by
    cases bigEndian <;> simp
  rw [← hlength]
  apply Nat.ofDigits_lt_base_pow_length (by decide)
  intro d hd
  obtain ⟨b, -, rfl⟩ := List.mem_map.1 hd
  exact b.toNat_lt

/-- What the bytes before have put together moves up by one place. -/
theorem foldl_eq_ofDigits (bytes : List UInt8) :
    bytes.foldl (fun n b => n * 256 + b.toNat) 0 = Nat.ofDigits 256 (bytes.reverse.map (·.toNat)) := by
  induction bytes using List.reverseRecOn with
  | nil => rfl
  | append_singleton bytes b ih =>
    rw [List.foldl_append, List.foldl_cons, List.foldl_nil, ih, List.reverse_append, List.reverse_singleton,
      List.singleton_append, List.map_cons, Nat.ofDigits_cons]
    omega

theorem number_eq_positional (bigEndian : Bool) (bytes : List UInt8) :
    number bigEndian bytes = positional bigEndian bytes := by
  unfold number positional
  rw [foldl_eq_ofDigits]
  cases bigEndian <;> simp

/-- The lowest byte of the shifted word is free, and the highest was, too. -/
theorem toNat_shift_or {w : UInt64} (b : UInt8) (h : w.toNat < 2 ^ 56) :
    (w <<< 8 ||| b.toUInt64).toNat = w.toNat * 256 + b.toNat := by
  have hb : b.toNat < 2 ^ 8 := b.toNat_lt
  have hshift : w.toNat <<< 8 = w.toNat * 256 := Nat.shiftLeft_eq w.toNat 8
  have hfits : w.toNat <<< 8 < 2 ^ 64 := by omega
  rw [UInt64.toNat_or, UInt64.toNat_shiftLeft, UInt8.toNat_toUInt64]
  change w.toNat <<< 8 % 2 ^ 64 ||| b.toNat = _
  rw [Nat.mod_eq_of_lt hfits, ← Nat.shiftLeft_add_eq_or_of_lt hb, hshift]

theorem toNat_shiftIn {bytes : List UInt8} (h : bytes.length ≤ 8) :
    (shiftIn bytes).toNat = bytes.foldl (fun n b => n * 256 + b.toNat) 0 := by
  induction bytes using List.reverseRecOn with
  | nil => rfl
  | append_singleton bytes b ih =>
    have hlength : bytes.length ≤ 7 := by
      rw [List.length_append, List.length_singleton] at h
      omega
    have hword := ih (Nat.le_succ_of_le hlength)
    have hroom : (shiftIn bytes).toNat < 2 ^ 56 := by
      have hnumber : (shiftIn bytes).toNat = number true bytes := hword
      rw [hnumber, number_eq_positional]
      calc positional true bytes < 256 ^ bytes.length := positional_lt true bytes
        _ ≤ 256 ^ 7 := Nat.pow_le_pow_right (by decide) hlength
        _ = 2 ^ 56 := by decide
    have hstep : shiftIn (bytes ++ [b]) = shiftIn bytes <<< 8 ||| b.toUInt64 := by
      simp [shiftIn]
    rw [hstep, toNat_shift_or b hroom, hword, List.foldl_append]
    rfl

/-- A word read from memory is the number that its bytes write. -/
theorem Image.toNat_readWord (m : Image) (bigEndian : Bool) (a : Address) {n : Nat} (h : n ≤ 8) :
    (m.readWord bigEndian a n).toNat = number bigEndian (m.read a n 0) := by
  have hlength : (if bigEndian then m.read a n 0 else (m.read a n 0).reverse).length ≤ 8 := by
    cases bigEndian <;> simpa [length_read] using h
  unfold readWord number
  exact toNat_shiftIn hlength

end BinAtlas
