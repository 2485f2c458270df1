import BinAtlas.Text.Wide
import Mathlib.Tactic.SplitIfs

/-! Texts survive being written in units of 16 or of 32 bits. What is read from units is always made of
characters, so its bytes are those of a text whatever the units are. -/

namespace BinAtlas

namespace Utf8

theorem encode_eq_toUTF8 (t : String) : encode t.toList = t.toUTF8.data.toList := by
  have h : (String.ofList t.toList).toByteArray = (encode t.toList).toByteArray := String.toByteArray_ofList
  rw [String.ofList_toList] at h
  rw [show t.toUTF8 = t.toByteArray from rfl, h, List.data_toByteArray, List.toList_toArray]

end Utf8

namespace Utf16

theorem notSurrogate (c : Char) : isHigh c.toNat = false ∧ isLow c.toNat = false := by
  have hvalid : c.toNat < 0xD800 ∨ 0xDFFF < c.toNat ∧ c.toNat < 0x110000 := c.valid
  simp only [isHigh, isLow, Bool.and_eq_false_iff, decide_eq_false_iff_not]
  omega

/-- The units of a character are read as that character, whatever follows. -/
theorem decode_encodeChar_append (c : Char) (us : List Nat) : decode (encodeChar c ++ us) = c :: decode us := by
  obtain ⟨hhigh, hlow⟩ := notSurrogate c
  have hvalid : c.toNat < 0xD800 ∨ 0xDFFF < c.toNat ∧ c.toNat < 0x110000 := c.valid
  simp only [encodeChar]
  by_cases hsmall : c.toNat < 0x10000
  · rw [if_pos hsmall]
    cases us with
    | nil => simp [decode, hhigh, hlow, Char.ofNat_toNat]
    | cons v us => simp [decode, hhigh, hlow, Char.ofNat_toNat]
  · rw [if_neg hsmall]
    have hpair : isHigh (0xD800 + (c.toNat - 0x10000) / 0x400) = true ∧
        isLow (0xDC00 + (c.toNat - 0x10000) % 0x400) = true := by
      simp only [isHigh, isLow, Bool.and_eq_true, decide_eq_true_eq]
      omega
    have hchar : pair (0xD800 + (c.toNat - 0x10000) / 0x400) (0xDC00 + (c.toNat - 0x10000) % 0x400) = c := by
      rw [pair, show 0x10000 + (0xD800 + (c.toNat - 0x10000) / 0x400 - 0xD800) * 0x400 +
        (0xDC00 + (c.toNat - 0x10000) % 0x400 - 0xDC00) = c.toNat by omega, Char.ofNat_toNat]
    simp only [List.cons_append, List.nil_append, decode, hpair, Bool.and_self, if_true, hchar]

theorem decode_encode_append (cs : List Char) (us : List Nat) : decode (encode cs ++ us) = cs ++ decode us := by
  induction cs with
  | nil => rfl
  | cons c cs ih =>
    rw [encode, List.flatMap_cons, List.append_assoc, decode_encodeChar_append]
    exact congrArg (c :: ·) ih

theorem decode_encode (cs : List Char) : decode (encode cs) = cs := by
  have h := decode_encode_append cs []
  rwa [List.append_nil, show decode [] = [] from rfl, List.append_nil] at h

/-- A surrogate on its own is replaced, and the texts around it are read as they are. -/
theorem decode_lone {u : Nat} (hu : (isHigh u || isLow u) = true) (cs ds : List Char) :
    decode (encode cs ++ u :: encode ds) = cs ++ Utf8.replacement :: ds := by
  rw [decode_encode_append]
  congr 1
  cases ds with
  | nil => simp [encode, decode, hu]
  | cons d ds =>
    have hds := decode_encode (d :: ds)
    obtain ⟨v, vs, hv, hlow⟩ : ∃ v vs, encode (d :: ds) = v :: vs ∧ isLow v = false := by
      simp only [encode, List.flatMap_cons, encodeChar]
      split_ifs
      · exact ⟨_, _, rfl, (notSurrogate d).2⟩
      · refine ⟨_, _, rfl, ?_⟩
        have hvalid : d.toNat < 0xD800 ∨ 0xDFFF < d.toNat ∧ d.toNat < 0x110000 := d.valid
        simp only [isLow, Bool.and_eq_false_iff, decide_eq_false_iff_not]
        omega
    rw [hv] at hds ⊢
    rw [decode, hlow, Bool.and_false, hu, hds]
    rfl

theorem encodeChar_bounds {c : Char} (hc : c.toNat ≠ 0) : ∀ u ∈ encodeChar c, u ≠ 0 ∧ u < 0x10000 := by
  have hvalid : c.toNat < 0xD800 ∨ 0xDFFF < c.toNat ∧ c.toNat < 0x110000 := c.valid
  intro u hu
  simp only [encodeChar] at hu
  split_ifs at hu
  · obtain rfl := List.mem_singleton.1 hu
    omega
  · simp only [List.mem_cons, List.not_mem_nil, or_false] at hu
    omega

theorem encode_bounds {cs : List Char} (hcs : ∀ c ∈ cs, c.toNat ≠ 0) : ∀ u ∈ encode cs, u ≠ 0 ∧ u < 0x10000 := by
  intro u hu
  obtain ⟨c, hc, hu⟩ := List.mem_flatMap.1 hu
  exact encodeChar_bounds (hcs c hc) u hu

end Utf16

namespace Utf32

theorem decode_encode (cs : List Char) : decode (encode cs) = cs := by
  have hunit : ∀ c : Char, decodeUnit c.toNat = c := by
    intro c
    have hvalid : c.toNat.isValidChar := c.valid
    rw [decodeUnit, if_pos hvalid, Char.ofNat_toNat]
  rw [decode, encode, List.map_map]
  exact List.map_id'' hunit cs

end Utf32
end BinAtlas
