import BinAtlas.Bytes.Hex
import BinAtlas.Proofs.Numeral

/-! Bytes survive being written in hexadecimal: the digits are no white space, so all of them are
read, and each pair of them is the byte it was written for. -/

namespace BinAtlas.Hex

theorem digit_nibble {n : Nat} (h : n < 16) : Numeral.Digit 16 n (nibble n) := ⟨h, .inl rfl⟩

theorem digit?_nibble {n : Nat} (h : n < 16) : Numeral.digit? (nibble n) = some n :=
  Numeral.digit?_eq_some_iff.2 (digit_nibble h)

theorem isBlank_nibble {n : Nat} (h : n < 16) : Text.isBlank (nibble n) = false :=
  Bool.eq_false_iff.2 (Numeral.not_isBlank_of_digit (Nat.le_refl 16) (digit_nibble h))

theorem high_lt (b : UInt8) : b.toNat / 16 < 16 := by
  have := b.toNat_lt
  omega

theorem low_lt (b : UInt8) : b.toNat % 16 < 16 := Nat.mod_lt _ (by decide)

theorem filter_encodeChars (bs : List UInt8) : (encodeChars bs).filter (fun c => !Text.isBlank c) = encodeChars bs := by
  induction bs with
  | nil => rfl
  | cons b bs ih =>
    rw [encodeChars, List.filter_cons_of_pos, List.filter_cons_of_pos, ih]
    · rw [isBlank_nibble (low_lt b), Bool.not_false]
    · rw [isBlank_nibble (high_lt b), Bool.not_false]

theorem decodeChars?_encodeChars (bs : List UInt8) : decodeChars? (encodeChars bs) = some bs := by
  induction bs with
  | nil => rfl
  | cons b bs ih =>
    have hbyte : (b.toNat / 16 * 16 + b.toNat % 16).toUInt8 = b := by
      rw [Nat.div_add_mod']
      exact UInt8.ofNat_toNat
    simp only [encodeChars, decodeChars?, digit?_nibble (high_lt b), digit?_nibble (low_lt b), ih,
      Option.bind_eq_bind, Option.bind_some, hbyte, Option.pure_def]

theorem decode?_encode (bs : List UInt8) : decode? (encode bs) = some bs := by
  rw [decode?, encode, String.toList_ofList, filter_encodeChars, decodeChars?_encodeChars]

end BinAtlas.Hex
