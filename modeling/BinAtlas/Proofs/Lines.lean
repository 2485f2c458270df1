import BinAtlas.Proofs.Heads
import BinAtlas.Proofs.Places
import Mathlib.Data.List.Perm.Subperm

/-! The lines of a function. Every head of the body is looked up once more, by the first item around it, so an
item that begins before a head and reaches over it takes its line away: the line repeats an earlier one, or
lies before the body. The lines are those of the body, each once and all of them, exactly where no item
reaches over the start of the body or over an item in it. -/

namespace BinAtlas

/-- What an address is looked up as: the least start of an item around it, or the address itself if there is none. -/
inductive Resolves (items : List Item) (a : Address) : Address → Prop
  | alone (free : ∀ i ∈ items, ¬ i.covers a) : Resolves items a a
  | within {i : Item} (mem : i ∈ items) (covers : i.covers a)
      (least : ∀ j ∈ items, j.covers a → i.address ≤ j.address) : Resolves items a i.address

namespace Item

theorem address_le_of_covers {i : Item} {a : Address} (h : i.covers a) : i.address ≤ a :=
  UInt64.le_iff_toNat_le.2 (covers_iff.1 h).1

/-- An item around an address is around all from its start on. -/
theorem covers_of_le {i : Item} {a b : Address} (h : i.covers b) (hi : i.address ≤ a) (hab : a ≤ b) : i.covers a := by
  rw [UInt64.le_iff_toNat_le] at hi hab
  rw [covers_iff] at h ⊢
  exact ⟨hi, Nat.lt_of_le_of_lt hab h.2⟩

end Item

namespace Resolves

variable {items : List Item} {a b p q : Address}

theorem le (h : Resolves items a p) : p ≤ a := by
  cases h with
  | alone => exact UInt64.le_refl a
  | within _ covers => exact Item.address_le_of_covers covers

/-- Nothing is looked up as itself that an earlier item reaches over. -/
theorem eq_self_iff (h : Resolves items a p) : p = a ↔ ∀ i ∈ items, i.covers a → i.address = a := by
  cases h with
  | alone free => exact iff_of_true rfl fun i hi hcov => absurd hcov (free i hi)
  | within mem covers least =>
    constructor
    · intro hself j hj hcov
      have hle := least j hj hcov
      rw [hself] at hle
      exact UInt64.le_antisymm (Item.address_le_of_covers hcov) hle
    · intro hall
      exact hall _ mem covers

/-- An item that takes a later address to before an earlier one is around that one, too. -/
theorem mono (ha : Resolves items a p) (hb : Resolves items b q) (hab : a ≤ b) : p ≤ q := by
  cases hb with
  | alone => exact UInt64.le_trans ha.le hab
  | @within j mem covers least =>
    by_cases hj : j.address ≤ a
    · have hcov := Item.covers_of_le covers hj hab
      cases ha with
      | alone free => exact absurd hcov (free j mem)
      | within _ _ leastBefore => exact leastBefore j mem hcov
    · exact UInt64.le_trans ha.le (UInt64.le_of_lt (UInt64.not_le.1 hj))

end Resolves

/-- What the lines of a function are meant to be: in the order of their addresses, each once, all of them in the
body if there is one, and one for every item that begins there. -/
structure LinesInBody (items : List Item) (f : FunctionEntry) (lines : List Line) : Prop where
  increasing : (lines.map (·.address)).Pairwise (· < ·)
  inside : f.start < f.stop → ∀ line ∈ lines, f.contains line.address
  complete : ∀ i ∈ items, f.contains i.address → ∃ line ∈ lines, line.address = i.address

/-- No item begins before the start of the body or before an item in it and reaches over that. -/
structure Unbroken (items : List Item) (f : FunctionEntry) : Prop where
  start : ∀ i ∈ items, i.covers f.start → i.address = f.start
  inside : ∀ j ∈ items, f.contains j.address → ∀ i ∈ items, i.covers j.address → i.address = j.address

theorem FunctionEntry.contains_iff (f : FunctionEntry) {a : Address} : f.contains a ↔ f.start ≤ a ∧ a < f.stop := by
  simp [contains]

theorem addresses_functionLines (v : View) (f : FunctionEntry) :
    (v.functionLines f).map (·.address) = (v.heads f).map v.itemHead := by
  rw [View.functionLines, List.map_map]
  rfl

/-- A function without a body has the one line at its start. -/
theorem linesInBody_of_empty (items : List Item) (v : View) {f : FunctionEntry} (empty : ¬ f.start < f.stop) :
    LinesInBody items f (v.functionLines f) := by
  have hheads : v.heads f = [f.start] := by
    rw [UInt64.lt_iff_toNat_lt] at empty
    rw [View.heads, Nat.sub_eq_zero_of_le (Nat.not_lt.1 empty)]
    rfl
  constructor
  · rw [addresses_functionLines, hheads]
    exact List.pairwise_singleton _ _
  · intro body
    exact absurd body empty
  · intro i _ hin
    obtain ⟨hle, hlt⟩ := f.contains_iff.1 hin
    exact absurd (UInt64.lt_of_le_of_lt hle hlt) empty

/-- Distinct values in order that hold all arguments are the arguments. -/
theorem map_eq_self {g : Address → Address} {l : List Address} (hl : l.Pairwise (· < ·))
    (hg : (l.map g).Pairwise (· < ·)) (hsub : l ⊆ l.map g) : l.map g = l := by
  have honce : l.Nodup := hl.imp UInt64.ne_of_lt
  have hperm : l.Perm (l.map g) :=
    (List.subperm_of_subset honce hsub).perm_of_length_le (Nat.le_of_eq (l.length_map g))
  apply hperm.symm.eq_of_pairwise _ hg hl
  intro a b _ _ hab hba
  exact absurd hba (UInt64.lt_asymm hab)

namespace Snapshot

variable {t : Snapshot} {stored : Stored} (accepted : t.load = .ok stored) (m : Image)

include accepted

theorem resolves_itemHead (a : Address) : Resolves t.items a ((stored.tables.view m).itemHead a) := by
  have harr := items_of_load accepted
  change Resolves t.items a (((stored.tables.itemAt a).map (·.address)).getD a)
  cases hfind : stored.tables.itemAt a with
  | none =>
    apply Resolves.alone
    intro i hi hcov
    exact List.find?_eq_none.1 hfind i (harr.perm.mem_iff.2 hi) hcov
  | some i =>
    have hcov : i.covers a := by simpa using List.find?_some hfind
    apply Resolves.within (harr.perm.mem_iff.1 (List.mem_of_find?_eq_some hfind)) hcov
    intro j hj hcovj
    exact harr.le_of_find? hfind hj hcovj

theorem mem_heads_of_contains {f : FunctionEntry} {i : Item} (hi : i ∈ t.items) (hin : f.contains i.address) :
    i.address ∈ (stored.tables.view m).heads f := by
  obtain ⟨hle, hlt⟩ := f.contains_iff.1 hin
  rw [mem_heads accepted]
  rcases UInt64.le_iff_lt_or_eq.1 hle with hstart | hstart
  · exact .inr ⟨hstart, hlt, i, hi, rfl⟩
  · exact .inl hstart.symm

/-- A body has its lines looked up as they should be where each of its heads is looked up as itself. -/
theorem unbroken_iff (f : FunctionEntry) :
    Unbroken t.items f ↔ ∀ a ∈ (stored.tables.view m).heads f, (stored.tables.view m).itemHead a = a := by
  have hself := fun a => (resolves_itemHead accepted m a).eq_self_iff
  constructor
  · intro h a ha
    rw [hself]
    rcases (mem_heads accepted m f).1 ha with rfl | ⟨hlt, hstop, j, hj, rfl⟩
    · exact h.start
    · exact h.inside j hj (f.contains_iff.2 ⟨UInt64.le_of_lt hlt, hstop⟩)
  · intro h
    constructor
    · exact (hself f.start).1 (h f.start ((mem_heads accepted m f).2 (.inl rfl)))
    · intro j hj hin
      exact (hself j.address).1 (h j.address (mem_heads_of_contains accepted m hj hin))

/-- With a body its start and its items are among the lines, so each head has to be one. -/
theorem itemHead_of_linesInBody {f : FunctionEntry} (body : f.start < f.stop)
    (h : LinesInBody t.items f ((stored.tables.view m).functionLines f)) :
    ∀ a ∈ (stored.tables.view m).heads f, (stored.tables.view m).itemHead a = a := by
  have haddresses := addresses_functionLines (stored.tables.view m) f
  have hincreasing := h.increasing
  rw [haddresses] at hincreasing
  have hsub : (stored.tables.view m).heads f ⊆
      ((stored.tables.view m).heads f).map (stored.tables.view m).itemHead := by
    intro a ha
    rcases (mem_heads accepted m f).1 ha with rfl | ⟨hlt, hstop, i, hi, rfl⟩
    · have hline : (stored.tables.view m).getLine f.start ∈ (stored.tables.view m).functionLines f :=
        List.mem_map_of_mem ha
      have hle : f.start ≤ (stored.tables.view m).itemHead f.start := (f.contains_iff.1 (h.inside body _ hline)).1
      have hself := UInt64.le_antisymm (resolves_itemHead accepted m f.start).le hle
      exact List.mem_map.2 ⟨f.start, ha, hself⟩
    · obtain ⟨line, hline, heq⟩ := h.complete i hi (f.contains_iff.2 ⟨UInt64.le_of_lt hlt, hstop⟩)
      rw [← haddresses, ← heq]
      exact List.mem_map_of_mem hline
  have hfixed := map_eq_self (heads_increasing accepted m f) hincreasing hsub
  intro a ha
  exact List.map_inj_left.1 (hfixed.trans (List.map_id _).symm) a ha

theorem linesInBody_of_itemHead {f : FunctionEntry}
    (h : ∀ a ∈ (stored.tables.view m).heads f, (stored.tables.view m).itemHead a = a) :
    LinesInBody t.items f ((stored.tables.view m).functionLines f) := by
  have haddresses : ((stored.tables.view m).functionLines f).map (·.address) = (stored.tables.view m).heads f := by
    rw [addresses_functionLines, List.map_congr_left h, List.map_id']
  constructor
  · rw [haddresses]
    exact heads_increasing accepted m f
  · intro body line hline
    have hmem : line.address ∈ (stored.tables.view m).heads f := haddresses ▸ List.mem_map_of_mem hline
    rcases (mem_heads accepted m f).1 hmem with hstart | ⟨hlt, hstop, -⟩
    · rw [hstart]
      exact f.contains_iff.2 ⟨UInt64.le_refl _, body⟩
    · exact f.contains_iff.2 ⟨UInt64.le_of_lt hlt, hstop⟩
  · intro i hi hin
    have hmem := mem_heads_of_contains accepted m hi hin
    rw [← haddresses] at hmem
    exact List.mem_map.1 hmem

/-- The lines are those of the heads, looked up once more, and they never go back; and they are what they are
meant to be exactly where there is no body or no item reaches over one of the heads in it. -/
theorem lines_in_body_iff (f : FunctionEntry) :
    (∃ heads : List Address, heads.Pairwise (· < ·) ∧
      (∀ a, a ∈ heads ↔ a = f.start ∨ f.start < a ∧ a < f.stop ∧ IsHead t.items a) ∧
      List.Forall₂ (fun a line => ∃ p, Resolves t.items a p ∧ line = (stored.tables.view m).lineAt p) heads
        ((stored.tables.view m).functionLines f)) ∧
    (((stored.tables.view m).functionLines f).map (·.address)).Pairwise (· ≤ ·) ∧
    (LinesInBody t.items f ((stored.tables.view m).functionLines f) ↔ (f.start < f.stop → Unbroken t.items f)) := by
  refine ⟨⟨(stored.tables.view m).heads f, heads_increasing accepted m f, fun a => mem_heads accepted m f, ?_⟩, ?_, ?_⟩
  · rw [View.functionLines, List.forall₂_map_right_iff, List.forall₂_same]
    intro a _
    exact ⟨_, resolves_itemHead accepted m a, rfl⟩
  · rw [addresses_functionLines, List.pairwise_map]
    apply (heads_increasing accepted m f).imp
    intro a b hab
    exact (resolves_itemHead accepted m a).mono (resolves_itemHead accepted m b) (UInt64.le_of_lt hab)
  · constructor
    · intro h body
      exact (unbroken_iff accepted m f).2 (itemHead_of_linesInBody accepted m body h)
    · intro h
      by_cases body : f.start < f.stop
      · exact linesInBody_of_itemHead accepted m ((unbroken_iff accepted m f).1 (h body))
      · exact linesInBody_of_empty t.items (stored.tables.view m) body

end Snapshot

/-- An item within another one. -/
def shadowed : Snapshot :=
  { functions := [⟨0x1000, 0x1002, some "f"⟩]
    items := [⟨0x1000, 2, true, none, none, none⟩, ⟨0x1001, 1, true, none, none, none⟩] }

/-- The outer item is listed twice, and the inner one never. -/
theorem shadowed_lists_outer : shadowed.load = .ok ⟨shadowed, []⟩ ∧
    (shadowed.view []).getFunction 0x1000 = .ok ⟨0x1000, 0x1002, some "f"⟩ ∧
    ((shadowed.view []).functionLines ⟨0x1000, 0x1002, some "f"⟩).map (·.address) = [0x1000, 0x1000] ∧
    ¬ LinesInBody shadowed.items ⟨0x1000, 0x1002, some "f"⟩
      ((shadowed.view []).functionLines ⟨0x1000, 0x1002, some "f"⟩) := by
  have hsorted : shadowed.items.mergeSort (fun i j => i.address ≤ j.address) = shadowed.items :=
    List.mergeSort_of_pairwise (by decide)
  have htwice : ((shadowed.view []).functionLines ⟨0x1000, 0x1002, some "f"⟩).map (·.address) = [0x1000, 0x1000] := rfl
  refine ⟨Snapshot.load_eq_ok_iff.2 ⟨(Snapshot.flaw?_eq_none_iff shadowed).1 rfl, ?_⟩, rfl, htwice, ?_⟩
  · rw [hsorted]
    simp [shadowed]
  · intro h
    have hincreasing := h.increasing
    rw [htwice] at hincreasing
    exact absurd hincreasing (by decide)

/-- Items that overlap outside the body of a function, and one without a size at its start. -/
def clearBody : Snapshot :=
  { functions := [⟨0x1004, 0x1010, none⟩]
    items := [⟨0x100c, 8, true, none, none, none⟩, ⟨0x1004, 0, true, none, none, none⟩,
      ⟨0x1008, 4, false, none, none, none⟩, ⟨0x1000, 4, true, none, none, none⟩,
      ⟨0x1002, 2, true, none, none, none⟩, ⟨0x1010, 4, true, none, none, none⟩] }

theorem lines_in_body_iff_clearBody : ∃ stored, clearBody.load = .ok stored ∧
    LinesInBody clearBody.items ⟨0x1004, 0x1010, none⟩
      ((stored.tables.view []).functionLines ⟨0x1004, 0x1010, none⟩) := by
  have accepted := Snapshot.load_eq_ok_iff.2 ⟨(Snapshot.flaw?_eq_none_iff clearBody).1 rfl, rfl⟩
  refine ⟨_, accepted, (Snapshot.lines_in_body_iff accepted [] ⟨0x1004, 0x1010, none⟩).2.2.2 fun _ => ?_⟩
  constructor <;> decide

end BinAtlas
