import BinAtlas.Address

/-! Tables in the order of an address. Sorting loses and adds nothing and leaves entries of one
address as they were, and there is only one such order. -/

namespace BinAtlas

/-- The second list has the entries of the first in the order of their keys, those of one key as they
stood. -/
structure Arranged {α : Type} (key : α → Address) (listed arranged : List α) : Prop where
  perm : arranged.Perm listed
  ordered : arranged.Pairwise fun a b => key a ≤ key b
  ties : ∀ k, arranged.filter (key · == k) = listed.filter (key · == k)

variable {α : Type} {key : α → Address} {l l' : List α}

theorem arranged_mergeSort (key : α → Address) (l : List α) :
    Arranged key l (l.mergeSort fun a b => key a ≤ key b) := by
  have htrans : ∀ a b c : α, decide (key a ≤ key b) = true → decide (key b ≤ key c) = true →
      decide (key a ≤ key c) = true := by
    intro a b c hab hbc
    exact decide_eq_true (UInt64.le_trans (of_decide_eq_true hab) (of_decide_eq_true hbc))
  have htotal : ∀ a b : α, (decide (key a ≤ key b) || decide (key b ≤ key a)) = true := by
    intro a b
    simpa using UInt64.le_total (key a) (key b)
  have hperm := List.mergeSort_perm l fun a b => decide (key a ≤ key b)
  refine ⟨hperm, (List.pairwise_mergeSort htrans htotal l).imp of_decide_eq_true, fun k => ?_⟩
  -- entries of one key are in order as they stand, so they are a sublist of the sorted list
  have htied : (l.filter (key · == k)).Pairwise fun a b => decide (key a ≤ key b) = true := by
    refine List.pairwise_of_forall_mem_list fun a ha b hb => decide_eq_true ?_
    rw [eq_of_beq (List.mem_filter.1 ha).2, eq_of_beq (List.mem_filter.1 hb).2]
    exact UInt64.le_refl k
  have hsub := (List.sublist_mergeSort htrans htotal htied List.filter_sublist).filter (key · == k)
  rw [List.filter_filter, show (fun a => (key a == k) && (key a == k)) = (key · == k) by simp] at hsub
  exact (hsub.eq_of_length (hperm.filter _).length_eq.symm).symm

theorem Arranged.filter (h : Arranged key l l') (p : α → Bool) : Arranged key (l.filter p) (l'.filter p) where
  perm := h.perm.filter p
  ordered := h.ordered.filter p
  ties k := by
    have hswap : ∀ l : List α, (l.filter p).filter (key · == k) = (l.filter (key · == k)).filter p := by
      intro l
      rw [List.filter_filter, List.filter_filter]
      simp only [Bool.and_comm]
    rw [hswap, hswap, h.ties k]

/-- The first entry of a key stays the first one. -/
theorem Arranged.find?_key (h : Arranged key l l') (k : Address) : l'.find? (key · == k) = l.find? (key · == k) := by
  rw [← List.head?_filter, ← List.head?_filter, h.ties k]

/-- The first entries of two arrangements have one key, so they are the first of that key. -/
theorem Arranged.unique {l₁ l₂ : List α} (h₁ : Arranged key l l₁) (h₂ : Arranged key l l₂) : l₁ = l₂ := by
  have hties : ∀ k, l₁.filter (key · == k) = l₂.filter (key · == k) := fun k => (h₁.ties k).trans (h₂.ties k).symm
  have hperm := h₁.perm.trans h₂.perm.symm
  have ho₁ := h₁.ordered
  have ho₂ := h₂.ordered
  clear h₁ h₂
  induction l₁ generalizing l₂ with
  | nil => exact hperm.nil_eq
  | cons a as ih =>
    cases l₂ with
    | nil => exact hperm.eq_nil
    | cons b bs =>
      obtain ⟨ha, hrest₁⟩ := List.pairwise_cons.1 ho₁
      obtain ⟨hb, hrest₂⟩ := List.pairwise_cons.1 ho₂
      have hkey : key a = key b := by
        refine UInt64.le_antisymm ?_ ?_
        · rcases List.mem_cons.1 (hperm.mem_iff.2 List.mem_cons_self) with rfl | hmem
          · exact UInt64.le_refl _
          · exact ha b hmem
        · rcases List.mem_cons.1 (hperm.mem_iff.1 List.mem_cons_self) with rfl | hmem
          · exact UInt64.le_refl _
          · exact hb a hmem
      have hfirst := hties (key a)
      simp only [List.filter_cons, hkey, beq_self_eq_true, if_true] at hfirst
      obtain rfl := (List.cons.inj hfirst).1
      refine congrArg _ (ih (fun k => ?_) hperm.cons_inv hrest₁ hrest₂)
      have hk := hties k
      rw [List.filter_cons, List.filter_cons] at hk
      split at hk
      · exact (List.cons.inj hk).2
      · exact hk

/-- What is found first has the least key. -/
theorem Arranged.le_of_find? (h : Arranged key l l') {p : α → Bool} {a b : α} (ha : l'.find? p = some a) (hb : b ∈ l)
    (hp : p b) : key a ≤ key b := by
  obtain ⟨-, before, after, rfl, hnone⟩ := List.find?_eq_some_iff_append.1 ha
  rcases List.mem_append.1 (h.perm.mem_iff.2 hb) with hmem | hmem
  · simpa [hp] using hnone b hmem
  · rcases List.mem_cons.1 hmem with rfl | hmem
    · exact UInt64.le_refl _
    · exact (List.pairwise_cons.1 (List.pairwise_append.1 h.ordered).2.1).1 b hmem

end BinAtlas
