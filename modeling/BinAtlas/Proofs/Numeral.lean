import BinAtlas.Numeral
import BinAtlas.Text.Blank
import Mathlib.Data.List.Forall2
import Mathlib.Data.Nat.Digits.Lemmas
import Mathlib.Tactic.Ring

/-! Numerals. One or more digits write the sum of their values, each times the power of the base for its place, and
what is read from them is this number. The digits of a number write it, and zeros in front of them change nothing. -/

namespace BinAtlas.Numeral

variable {base d n : Nat} {c : Char} {cs : List Char}

/-- A character that writes a digit of a base: a figure, or for ten and more a letter of either case. -/
def Digit (base d : Nat) (c : Char) : Prop := d < base ∧ (c = d.digitChar ∨ c = d.digitChar.toUpper)

/-- One or more digits, that of the highest place first, write a number. -/
def Writes (base : Nat) (cs : List Char) (n : Nat) : Prop :=
  ∃ ds ≠ [], List.Forall₂ (Digit base) ds cs ∧ Nat.ofDigits base ds.reverse = n

/-- At most one plus sign, and then digits that write a number. -/
def Signed (base : Nat) (cs : List Char) (n : Nat) : Prop :=
  Writes base cs n ∨ ∃ digits, cs = '+' :: digits ∧ Writes base digits n

instance : Decidable (Digit base d c) := inferInstanceAs (Decidable (_ ∧ _))

/-- What holds of all characters of a range by their places in it holds of each one of them. -/
theorem of_range {P : Nat → Char → Prop} {first count : Nat} (all : ∀ k < count, P k (Char.ofNat (first + k)))
    (hfirst : first ≤ c.toNat) (hlast : c.toNat < first + count) : P (c.toNat - first) c := by
  have h := all (c.toNat - first) (by omega)
  rwa [Nat.add_sub_cancel' hfirst, Char.ofNat_toNat] at h

theorem digit?_eq_some_iff : digit? c = some d ↔ Digit 16 d c := by
  constructor
  · have hfigures : ∀ k < 10, Digit 16 k (Char.ofNat (48 + k)) := by decide
    have hlower : ∀ k < 6, Digit 16 (k + 10) (Char.ofNat (97 + k)) := by decide
    have hupper : ∀ k < 6, Digit 16 (k + 10) (Char.ofNat (65 + k)) := by decide
    intro h
    unfold digit? at h
    split_ifs at h with hc hc hc <;> cases h
    · exact of_range hfigures hc.1 (Nat.lt_succ_of_le hc.2)
    · exact of_range hlower hc.1 (Nat.lt_succ_of_le hc.2)
    · exact of_range hupper hc.1 (Nat.lt_succ_of_le hc.2)
  · have hread : ∀ d < 16, digit? d.digitChar = some d ∧ digit? d.digitChar.toUpper = some d := by decide
    rintro ⟨hd, rfl | rfl⟩
    · exact (hread d hd).1
    · exact (hread d hd).2

theorem not_isBlank_of_digit (hbase : base ≤ 16) (h : Digit base d c) : ¬ Text.isBlank c := by
  have hnone : ∀ d < 16, ¬ Text.isBlank d.digitChar ∧ ¬ Text.isBlank d.digitChar.toUpper := by decide
  obtain ⟨hd, rfl | rfl⟩ := h
  · exact (hnone d (Nat.lt_of_lt_of_le hd hbase)).1
  · exact (hnone d (Nat.lt_of_lt_of_le hd hbase)).2

section Base

variable (hbase : base ≤ 16)

include hbase

theorem digitIn?_eq_some_iff : digitIn? base c = some d ↔ Digit base d c := by
  rw [digitIn?, Option.filter_eq_some_iff, digit?_eq_some_iff]
  simp only [Digit, decide_eq_true_eq]
  constructor
  · rintro ⟨⟨-, hc⟩, hd⟩
    exact ⟨hd, hc⟩
  · rintro ⟨hd, hc⟩
    exact ⟨⟨Nat.lt_of_lt_of_le hd hbase, hc⟩, hd⟩

/-- What has been read moves up by as many places as digits follow. -/
theorem extend?_eq_some_iff {m : Nat} : extend? base m cs = some n ↔
    ∃ ds, List.Forall₂ (Digit base) ds cs ∧ m * base ^ ds.length + Nat.ofDigits base ds.reverse = n := by
  induction cs generalizing m with
  | nil => simp [extend?]
  | cons c cs ih =>
    have hmove : ∀ d ds, m * base ^ (d :: ds).length + Nat.ofDigits base (d :: ds).reverse =
        (m * base + d) * base ^ ds.length + Nat.ofDigits base ds.reverse := by
      intro d ds
      rw [List.reverse_cons, Nat.ofDigits_append, Nat.ofDigits_singleton, List.length_reverse, List.length_cons]
      ring
    rw [extend?, Option.bind_eq_some_iff]
    simp only [digitIn?_eq_some_iff hbase, ih, List.forall₂_cons_right_iff]
    constructor
    · rintro ⟨d, hd, ds, hds, hn⟩
      exact ⟨d :: ds, ⟨d, ds, hd, hds, rfl⟩, (hmove d ds).trans hn⟩
    · rintro ⟨_, ⟨d, ds, hd, hds, rfl⟩, hn⟩
      exact ⟨d, hd, ds, hds, (hmove d ds).symm.trans hn⟩

theorem value?_eq_some_iff : value? base cs = some n ↔ Writes base cs n := by
  rcases cs with _ | ⟨c, cs⟩
  · simp [value?, Writes]
  · have hcons : value? base (c :: cs) = extend? base 0 (c :: cs) := rfl
    rw [hcons, extend?_eq_some_iff hbase]
    simp only [Writes, Nat.zero_mul, Nat.zero_add]
    constructor
    · rintro ⟨ds, hds, hn⟩
      refine ⟨ds, ?_, hds, hn⟩
      rintro rfl
      cases hds
    · rintro ⟨ds, -, hds, hn⟩
      exact ⟨ds, hds, hn⟩

theorem unsigned?_eq_some_iff : unsigned? base cs = some n ↔ Signed base cs n := by
  by_cases hplus : ∃ digits, cs = '+' :: digits
  · obtain ⟨digits, rfl⟩ := hplus
    have hnone : value? base ('+' :: digits) = none := rfl
    rw [Signed, ← value?_eq_some_iff hbase, hnone]
    simp [unsigned?, value?_eq_some_iff hbase]
  · have hvalue : unsigned? base cs = value? base cs := by
      unfold unsigned?
      split
      · exact absurd ⟨_, rfl⟩ hplus
      · rfl
    rw [hvalue, value?_eq_some_iff hbase, Signed, or_iff_left]
    rintro ⟨digits, hcs, -⟩
    exact hplus ⟨digits, hcs⟩

end Base

theorem Writes.exists_digit (h : Writes base cs n) : ∀ c ∈ cs, ∃ d, Digit base d c := by
  obtain ⟨ds, -, hds, -⟩ := h
  induction hds with
  | nil => simp
  | @cons d c _ _ hd _ ih => exact List.forall_mem_cons.2 ⟨⟨d, hd⟩, ih⟩

theorem Writes.snoc (h : Writes base cs n) (hd : Digit base d c) : Writes base (cs ++ [c]) (n * base + d) := by
  obtain ⟨ds, -, hds, rfl⟩ := h
  refine ⟨ds ++ [d], by simp, List.rel_append hds (.cons hd .nil), ?_⟩
  rw [List.reverse_append, List.reverse_singleton, List.singleton_append, Nat.ofDigits_cons, Nat.add_comm, Nat.mul_comm]

theorem writes_one (hd : Digit base d c) : Writes base [c] d :=
  ⟨[d], by simp, .cons hd .nil, Nat.ofDigits_singleton⟩

theorem writes_two_iff {a b : Char} :
    Writes base [a, b] n ↔ ∃ h l, Digit base h a ∧ Digit base l b ∧ h * base + l = n := by
  constructor
  · rintro ⟨ds, -, hds, rfl⟩
    obtain ⟨h, rest, hh, hrest, rfl⟩ := List.forall₂_cons_right_iff.1 hds
    obtain ⟨l, rest, hl, hnil, rfl⟩ := List.forall₂_cons_right_iff.1 hrest
    obtain rfl := List.forall₂_nil_right_iff.1 hnil
    refine ⟨h, l, hh, hl, ?_⟩
    simp only [List.reverse_cons, List.reverse_nil, List.nil_append, List.cons_append, Nat.ofDigits_cons, Nat.ofDigits_nil]
    ring
  · rintro ⟨h, l, hh, hl, rfl⟩
    exact (writes_one hh).snoc hl

theorem writes_toDigits (hbase : 1 < base) (n : Nat) : Writes base (Nat.toDigits base n) n := by
  induction n using Nat.strongRecOn with
  | ind n ih =>
    by_cases hn : n < base
    · rw [Nat.toDigits_of_lt_base hn]
      exact writes_one ⟨hn, .inl rfl⟩
    · have hn := Nat.le_of_not_lt hn
      have hquotient := ih (n / base) (Nat.div_lt_self (by omega) hbase)
      rw [Nat.toDigits_of_base_le hbase hn]
      have hwrites := hquotient.snoc ⟨Nat.mod_lt n (by omega), .inl rfl⟩
      rwa [Nat.div_add_mod'] at hwrites

/-- Zeros in front change nothing. -/
theorem Writes.replicate_zero (hbase : 0 < base) (h : Writes base cs n) (k : Nat) :
    Writes base (List.replicate k '0' ++ cs) n := by
  obtain ⟨ds, hne, hds, hn⟩ := h
  have hzero : Digit base 0 '0' := ⟨hbase, .inl rfl⟩
  have hzeros : List.Forall₂ (Digit base) (List.replicate k 0) (List.replicate k '0') := by
    induction k with
    | zero => exact .nil
    | succ k ih => exact .cons hzero ih
  refine ⟨List.replicate k 0 ++ ds, by simp [hne], List.rel_append hzeros hds, ?_⟩
  rw [List.reverse_append, List.reverse_replicate, Nat.ofDigits_append_replicate_zero, hn]

theorem word?_eq_some_iff {w : UInt64} : word? n = some w ↔ n = w.toNat := by
  unfold word?
  split_ifs with hn
  · have hword : n.toUInt64.toNat = n := UInt64.toNat_ofNat_of_lt hn
    rw [Option.some.injEq, ← UInt64.toNat_inj, hword]
  · have hw : w.toNat < UInt64.size := w.toNat_lt
    simp only [false_iff]
    omega

end BinAtlas.Numeral
