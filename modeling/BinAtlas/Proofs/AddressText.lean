import BinAtlas.SegmentKey
import BinAtlas.Proofs.Numeral
import BinAtlas.Proofs.Trim

/-! The grammar of addresses in texts. What is read from a text is the number that it spells, and it is read wherever
that number is a word; all that is written of a word spells it. -/

namespace BinAtlas

open Numeral

/-- A number in hexadecimal after `0x` or `0X`, or in decimal. -/
inductive Spelling (n : Nat) : List Char → Prop
  | hex {x cs} (mark : x = 'x' ∨ x = 'X') (digits : Signed 16 cs n) : Spelling n ('0' :: x :: cs)
  | decimal {cs} (digits : Signed 10 cs n) : Spelling n cs

/-- A text spells a number, with white space around it or none. -/
def Spells (t : String) (n : Nat) : Prop := ∃ body, Text.Surrounded Text.isBlank t.toList body ∧ Spelling n body

section Blank

variable {base n : Nat} {cs : List Char}

theorem not_isBlank_of_writes (hbase : base ≤ 16) (h : Writes base cs n) : ∀ c ∈ cs, ¬ Text.isBlank c := by
  intro c hc
  obtain ⟨d, hd⟩ := h.exists_digit c hc
  exact not_isBlank_of_digit hbase hd

theorem not_isBlank_of_signed (hbase : base ≤ 16) (h : Signed base cs n) : ∀ c ∈ cs, ¬ Text.isBlank c := by
  rcases h with h | ⟨digits, rfl, h⟩
  · exact not_isBlank_of_writes hbase h
  · exact List.forall_mem_cons.2 ⟨by decide, not_isBlank_of_writes hbase h⟩

/-- There is no white space in a spelling. -/
theorem Spelling.bare (h : Spelling n cs) : Text.Bare Text.isBlank cs := by
  have hnone : ∀ c ∈ cs, ¬ Text.isBlank c := by
    rcases h with ⟨mark, hdigits⟩ | hdigits
    · have hrest := not_isBlank_of_signed (Nat.le_refl 16) hdigits
      refine List.forall_mem_cons.2 ⟨by decide, List.forall_mem_cons.2 ⟨?_, hrest⟩⟩
      rcases mark with rfl | rfl <;> decide
    · exact not_isBlank_of_signed (Nat.le_add_right 10 6) hdigits
  exact ⟨fun c hc => hnone c (List.mem_of_head? hc), fun c hc => hnone c (List.mem_of_getLast? hc)⟩

end Blank

theorem spells_iff {t : String} {n : Nat} : Spells t n ↔ Spelling n (Text.trim t.toList) := by
  constructor
  · rintro ⟨body, hsurrounded, hbody⟩
    rwa [Text.trim, Text.trimBy_eq_iff.2 ⟨hsurrounded, hbody.bare⟩]
  · intro h
    exact ⟨_, Text.surrounded_trimBy _ _, h⟩

theorem spells_of_toList {t : String} {cs : List Char} {n : Nat} (ht : t.toList = cs) (h : Spelling n cs) :
    Spells t n :=
  ⟨cs, ⟨[], [], by simp [ht], by simp, by simp⟩, h⟩

/-- No mark of the base is a decimal digit. -/
theorem not_signed_of_mark {x : Char} (mark : x = 'x' ∨ x = 'X') {digits : List Char} {n : Nat} :
    ¬ Signed 10 ('0' :: x :: digits) n := by
  rintro (h | ⟨_, h, -⟩)
  · obtain ⟨d, hd⟩ := h.exists_digit x (by simp)
    rw [← digitIn?_eq_some_iff (by decide)] at hd
    rcases mark with rfl | rfl <;> cases hd
  · cases h

namespace Address

theorem ofText?_eq_some_iff {t : String} {v : Address} : ofText? t = some v ↔ Spells t v.toNat := by
  have hhex : ∀ {n cs}, unsigned? 16 cs = some n ↔ Signed 16 cs n := unsigned?_eq_some_iff (by decide)
  have hdecimal : ∀ {n cs}, unsigned? 10 cs = some n ↔ Signed 10 cs n := unsigned?_eq_some_iff (by decide)
  have hmarked : ∀ {n x cs}, x = 'x' ∨ x = 'X' → (Signed 16 cs n ↔ Spelling n ('0' :: x :: cs)) := by
    intro n x cs mark
    refine ⟨.hex mark, fun h => ?_⟩
    rcases h with ⟨-, h⟩ | h
    · exact h
    · exact absurd h (not_signed_of_mark mark)
  simp only [spells_iff, ofText?, Option.bind_eq_some_iff, word?_eq_some_iff, exists_eq_right]
  split
  case h_1 cs hbody => rw [hbody, hhex, hmarked (.inl rfl)]
  case h_2 cs hbody => rw [hbody, hhex, hmarked (.inr rfl)]
  case h_3 cs hx hX =>
    rw [hdecimal]
    refine ⟨.decimal, fun h => ?_⟩
    generalize hbody : Text.trim t.toList = body at h hx hX ⊢
    rcases h with ⟨rfl | rfl, -⟩ | h
    · exact absurd rfl (hx _)
    · exact absurd rfl (hX _)
    · exact h

theorem ofText?_eq_none_iff {t : String} : ofText? t = none ↔ ∀ n, Spells t n → UInt64.size ≤ n := by
  rw [Option.eq_none_iff_forall_ne_some]
  simp only [ne_eq, ofText?_eq_some_iff]
  constructor
  · intro h n hn
    by_contra hlt
    obtain ⟨v, rfl⟩ : ∃ v : Address, n = v.toNat :=
      ⟨n.toUInt64, (UInt64.toNat_ofNat_of_lt (Nat.lt_of_not_le hlt)).symm⟩
    exact h v hn
  · intro h v hv
    exact absurd (h _ hv) (Nat.not_le.2 v.toNat_lt)

theorem toList_marked (digits : List Char) : ("0x" ++ String.ofList digits).toList = '0' :: 'x' :: digits := by
  simp

/-- What is written of a word spells it: in hexadecimal, filled up with zeros or not, and in decimal. -/
theorem spells_text (v : Address) : Spells v.text v.toNat :=
  spells_of_toList (toList_marked _) (.hex (.inl rfl) (.inl (writes_toDigits (by decide) _)))

theorem writes_hex8 (n : Nat) : Writes 16 ((hexDigits n).leftpad 8 '0') n := by
  rw [List.leftpad]
  exact (writes_toDigits (by decide) n).replicate_zero (by decide) _

theorem spells_text8 (v : Address) : Spells v.text8 v.toNat :=
  spells_of_toList (toList_marked _) (.hex (.inl rfl) (.inl (writes_hex8 v.toNat)))

theorem spells_toString (v : Address) : Spells (toString v) v.toNat :=
  spells_of_toList Nat.toList_repr (.decimal (.inl (writes_toDigits (by decide) _)))

end Address

theorem SegmentKey.ofText_text_iff (key : SegmentKey) :
    ofText key.text = key ↔ ∀ n, key = .name n → ∀ v : Address, ¬ Spells n v.toNat := by
  simp only [← Address.ofText?_eq_some_iff]
  rcases key with a | n
  · have hread : Address.ofText? a.text = some a := Address.ofText?_eq_some_iff.2 a.spells_text
    simp [ofText, text, hread]
  · unfold ofText
    rcases hread : Address.ofText? n with _ | v
    · simp [text, hread]
    · simp [text, hread]

/-- A text is read as an address exactly where it spells a number that is a word. So the ways to write a word are read
back, and a segment key is read back that is an address or a name that spells none. -/
theorem address_grammar :
    (∀ t v, Address.ofText? t = some v ↔ Spells t v.toNat) ∧
    (∀ t, Address.ofText? t = none ↔ ∀ n, Spells t n → UInt64.size ≤ n) ∧
    (∀ v : Address, Address.ofText? v.text = some v ∧ Address.ofText? v.text8 = some v ∧
      Address.ofText? (toString v) = some v) ∧
    ∀ key : SegmentKey, SegmentKey.ofText key.text = key ↔ ∀ n, key = .name n → ∀ v : Address, ¬ Spells n v.toNat := by
  have hread : ∀ {t : String} {v : Address}, Spells t v.toNat → Address.ofText? t = some v := Address.ofText?_eq_some_iff.2
  refine ⟨fun t v => Address.ofText?_eq_some_iff, fun t => Address.ofText?_eq_none_iff, fun v => ?_,
    SegmentKey.ofText_text_iff⟩
  exact ⟨hread v.spells_text, hread v.spells_text8, hread v.spells_toString⟩

end BinAtlas
