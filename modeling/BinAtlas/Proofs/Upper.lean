import BinAtlas.Text.Upper
import Mathlib.Data.List.Basic
import Mathlib.Data.Nat.Bitwise

/-! Upper case is settled: a capital is its own capital, so to take capitals twice is to take them once. The tables
have too many pairs to compare one by one. A list of numbers is put into the bits of one number instead, and the small
characters and the capitals have nothing in common because their two numbers have no bit in common. -/

namespace BinAtlas.Text

/-- Numbers as the bits of one number. -/
def mask (l : List Nat) : Nat := l.foldl (fun m n => m ||| 1 <<< n) 0

theorem testBit_foldl (l : List Nat) (m n : Nat) :
    (l.foldl (fun m n => m ||| 1 <<< n) m).testBit n = (m.testBit n || decide (n ∈ l)) := by
  induction l generalizing m with
  | nil => simp
  | cons k l ih =>
    rw [List.foldl_cons, ih, Nat.testBit_or, Nat.one_shiftLeft, Nat.testBit_two_pow]
    simp [Bool.or_assoc, eq_comm]

theorem testBit_mask (l : List Nat) (n : Nat) : (mask l).testBit n = decide (n ∈ l) := by
  rw [mask, testBit_foldl, Nat.zero_testBit, Bool.false_or]

theorem not_mem_of_mask {l l' : List Nat} (h : mask l &&& mask l' = 0) {n : Nat} (hn : n ∈ l) : n ∉ l' := by
  have hbit := congrArg (Nat.testBit · n) h
  simpa [Nat.testBit_and, testBit_mask, hn] using hbit

namespace CaseRun

variable {r : CaseRun} {n : Nat}

def count (r : CaseRun) : Nat := (r.last - r.first) / r.step + 1

def smalls (r : CaseRun) : List Nat := (List.range r.count).map (r.first + r.step * ·)

def capitals (r : CaseRun) : List Nat := (List.range r.count).map (r.capital + r.step * ·)

/-- A small character and its capital have the same number in a run. -/
theorem exists_of_covers (h : r.covers n) :
    ∃ k < r.count, n = r.first + r.step * k ∧ r.capital + (n - r.first) = r.capital + r.step * k := by
  simp only [covers, Bool.and_eq_true, decide_eq_true_eq, beq_iff_eq] at h
  obtain ⟨⟨hfirst, hlast⟩, hstep⟩ := h
  have hmul := Nat.mul_div_cancel' (Nat.dvd_of_mod_eq_zero hstep)
  refine ⟨(n - r.first) / r.step, ?_, by omega, by omega⟩
  exact Nat.lt_succ_of_le (Nat.div_le_div_right (by omega))

theorem mem_smalls (h : r.covers n) : n ∈ r.smalls := by
  obtain ⟨k, hk, hn, -⟩ := exists_of_covers h
  exact List.mem_map.2 ⟨k, List.mem_range.2 hk, hn.symm⟩

theorem mem_capitals (h : r.covers n) : r.capital + (n - r.first) ∈ r.capitals := by
  obtain ⟨k, hk, -, hcapital⟩ := exists_of_covers h
  exact List.mem_map.2 ⟨k, List.mem_range.2 hk, hcapital.symm⟩

end CaseRun

/-- The characters that have a capital of their own, and those that are one. -/
def smallCodes : List Nat := caseRuns.flatMap (·.smalls) ++ longCapitals.map (·.1)

def capitalCodes : List Nat := caseRuns.flatMap (·.capitals) ++ longCapitals.flatMap (·.2)

theorem mask_codes : mask capitalCodes &&& mask smallCodes = 0 := by decide +kernel

/-- All capitals are characters, and the blank and the star are before all of them. -/
theorem capitalCodes_bounds : ∀ n ∈ capitalCodes, '*'.toNat < n ∧ n.isValidChar := by decide +kernel

theorem longCapitals_ne_nil : ∀ p ∈ longCapitals, p.2 ≠ [] := by decide +kernel

theorem upperChar_of_not_mem {c : Char} (h : c.toNat ∉ smallCodes) : upperChar c = [c] := by
  simp only [smallCodes, List.mem_append, List.mem_flatMap, List.mem_map, not_or, not_exists, not_and] at h
  have hlong : longCapitals.lookup c.toNat = none := by
    rw [List.lookup_eq_none_iff]
    intro p hp
    exact bne_iff_ne.2 fun he => h.2 p hp he.symm
  have hrun : caseRuns.find? (·.covers c.toNat) = none := by
    rw [List.find?_eq_none]
    intro r hr hcovers
    exact h.1 r hr (CaseRun.mem_smalls hcovers)
  rw [upperChar, hlong, hrun]

/-- A character is its own capital, or it has one that the tables list. -/
theorem upperChar_cases (c : Char) :
    upperChar c = [c] ∨ ∃ codes, codes ≠ [] ∧ upperChar c = codes.map Char.ofNat ∧ ∀ n ∈ codes, n ∈ capitalCodes := by
  unfold upperChar
  cases hlong : longCapitals.lookup c.toNat with
  | some codes =>
    obtain ⟨before, after, hsplit, -⟩ := List.lookup_eq_some_iff.1 hlong
    have hmem : (c.toNat, codes) ∈ longCapitals := by simp [hsplit]
    refine .inr ⟨codes, longCapitals_ne_nil _ hmem, rfl, fun n hn => ?_⟩
    exact List.mem_append_right _ (List.mem_flatMap.2 ⟨_, hmem, hn⟩)
  | none =>
    cases hrun : caseRuns.find? (·.covers c.toNat) with
    | none => exact .inl rfl
    | some r =>
      have hcovers : r.covers c.toNat = true := by simpa using List.find?_some hrun
      have hcapital := CaseRun.mem_capitals hcovers
      refine .inr ⟨[r.capital + (c.toNat - r.first)], by simp, rfl, ?_⟩
      simp only [List.mem_singleton, forall_eq]
      exact List.mem_append_left _ (List.mem_flatMap.2 ⟨r, List.mem_of_find?_eq_some hrun, hcapital⟩)

theorem upperChar_ne_nil (c : Char) : upperChar c ≠ [] := by
  rcases upperChar_cases c with h | ⟨codes, hne, h, -⟩
  · simp [h]
  · simpa [h] using hne

/-- What is in the capital of a character is the character, or a capital that is no blank and no star. -/
theorem mem_upperChar {c d : Char} (hd : d ∈ upperChar c) :
    upperChar d = [d] ∧ (d = c ∨ '*'.toNat < d.toNat) := by
  rcases upperChar_cases c with h | ⟨codes, -, h, hcodes⟩
  · rw [h, List.mem_singleton] at hd
    subst hd
    exact ⟨h, .inl rfl⟩
  · rw [h, List.mem_map] at hd
    obtain ⟨n, hn, rfl⟩ := hd
    have hcapital := hcodes n hn
    obtain ⟨hstar, hvalid⟩ := capitalCodes_bounds n hcapital
    have hcode : (Char.ofNat n).toNat = n := by
      rw [Char.ofNat, dif_pos hvalid]
      rfl
    refine ⟨upperChar_of_not_mem ?_, .inr ?_⟩
    · rw [hcode]
      exact not_mem_of_mask mask_codes hcapital
    · rw [hcode]
      exact hstar

theorem upperChar_flatMap (cs : List Char) : (cs.flatMap upperChar).flatMap upperChar = cs.flatMap upperChar := by
  have hsettled : ∀ l : List Char, (∀ d ∈ l, upperChar d = [d]) → l.flatMap upperChar = l := by
    intro l hl
    rw [List.flatMap_congr hl, List.flatMap_singleton']
  apply hsettled
  intro d hd
  obtain ⟨c, -, hdc⟩ := List.mem_flatMap.1 hd
  exact (mem_upperChar hdc).1

theorem toList_upper (s : String) : (upper s).toList = s.toList.flatMap upperChar := String.toList_ofList

theorem upper_upper (s : String) : upper (upper s) = upper s := by
  rw [upper, toList_upper, upperChar_flatMap, upper]

end BinAtlas.Text
