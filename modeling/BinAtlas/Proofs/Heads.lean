import BinAtlas.Host.Stored
import BinAtlas.Proofs.Loading
import BinAtlas.View.Functions

/-! The heads of a function. The walk goes from head to head by asking for the least one after the last
and before the end, so it meets every head in the body once, in order, whatever the items share. -/

namespace BinAtlas

/-- Whether an item of the list begins at an address. -/
def IsHead (items : List Item) (a : Address) : Prop := ∃ i ∈ items, i.address = a

namespace Snapshot

variable {t : Snapshot} {stored : Stored} (accepted : t.load = .ok stored) (m : Image)

include accepted

theorem items_of_load : Arranged (·.address) t.items stored.tables.items := by
  obtain ⟨-, rfl⟩ := load_eq_ok_iff.1 accepted
  exact arranged_mergeSort _ _

theorem nextHead_eq_some {a limit b : Address} (h : (stored.tables.view m).nextHead a limit = some b) :
    IsHead t.items b ∧ a < b ∧ b < limit ∧ ∀ c, IsHead t.items c → a < c → c < limit → b ≤ c := by
  have harr := items_of_load accepted
  change (stored.tables.items.map (·.address)).find? _ = some b at h
  rw [List.find?_map, Option.map_eq_some_iff] at h
  obtain ⟨i, hfind, rfl⟩ := h
  have hin : a < i.address ∧ i.address < limit := by simpa using List.find?_some hfind
  refine ⟨⟨i, harr.perm.mem_iff.1 (List.mem_of_find?_eq_some hfind), rfl⟩, hin.1, hin.2, ?_⟩
  rintro c ⟨j, hj, rfl⟩ hac hlimit
  exact harr.le_of_find? hfind hj (by simp [hac, hlimit])

theorem nextHead_eq_none {a limit : Address} (h : (stored.tables.view m).nextHead a limit = none) {c : Address}
    (hc : IsHead t.items c) (hac : a < c) : ¬ c < limit := by
  change (stored.tables.items.map (·.address)).find? _ = none at h
  rw [List.find?_eq_none] at h
  obtain ⟨i, hi, rfl⟩ := hc
  intro hlimit
  have hmem := (items_of_load accepted).perm.mem_iff.2 hi
  exact h i.address (List.mem_map_of_mem hmem) (by simp [hac, hlimit])

/-- The walk may take as many steps as there are addresses left, and each step takes it past one at
least, so it does not stop early. -/
theorem mem_headsFrom {stop : Address} {n : Nat} {a : Address} (enough : stop.toNat ≤ a.toNat + n) {b : Address} :
    b ∈ (stored.tables.view m).headsFrom stop n a ↔ b = a ∨ a < b ∧ b < stop ∧ IsHead t.items b := by
  induction n generalizing a with
  | zero =>
    rw [View.headsFrom, List.mem_singleton]
    refine ⟨.inl, ?_⟩
    rintro (rfl | ⟨hab, hstop, -⟩)
    · rfl
    · rw [UInt64.lt_iff_toNat_lt] at hab hstop
      omega
  | succ n ih =>
    rw [View.headsFrom]
    cases hnext : (stored.tables.view m).nextHead a stop with
    | none =>
      rw [List.mem_singleton]
      refine ⟨.inl, ?_⟩
      rintro (rfl | ⟨hab, hstop, hb⟩)
      · rfl
      · exact absurd hstop (nextHead_eq_none accepted m hnext hb hab)
    | some c =>
      obtain ⟨hc, hac, hcstop, hleast⟩ := nextHead_eq_some accepted m hnext
      have hrest : stop.toNat ≤ c.toNat + n := by
        rw [UInt64.lt_iff_toNat_lt] at hac
        omega
      rw [List.mem_cons, ih hrest]
      constructor
      · rintro (rfl | rfl | ⟨hcb, hstop, hb⟩)
        · exact .inl rfl
        · exact .inr ⟨hac, hcstop, hc⟩
        · exact .inr ⟨UInt64.lt_trans hac hcb, hstop, hb⟩
      · rintro (rfl | ⟨hab, hstop, hb⟩)
        · exact .inl rfl
        · rcases UInt64.le_iff_lt_or_eq.1 (hleast b hb hab hstop) with hlt | rfl
          · exact .inr (.inr ⟨hlt, hstop, hb⟩)
          · exact .inr (.inl rfl)

theorem headsFrom_increasing {stop : Address} {n : Nat} {a : Address} (enough : stop.toNat ≤ a.toNat + n) :
    ((stored.tables.view m).headsFrom stop n a).Pairwise (· < ·) := by
  induction n generalizing a with
  | zero => exact List.pairwise_singleton _ _
  | succ n ih =>
    rw [View.headsFrom]
    cases hnext : (stored.tables.view m).nextHead a stop with
    | none => exact List.pairwise_singleton _ _
    | some c =>
      obtain ⟨-, hac, -, -⟩ := nextHead_eq_some accepted m hnext
      have hrest : stop.toNat ≤ c.toNat + n := by
        rw [UInt64.lt_iff_toNat_lt] at hac
        omega
      refine List.pairwise_cons.2 ⟨fun b hb => ?_, ih hrest⟩
      rcases (mem_headsFrom accepted m hrest).1 hb with rfl | ⟨hcb, -, -⟩
      · exact hac
      · exact UInt64.lt_trans hac hcb

/-- The heads of a body are its start and the items that begin after it and before its end. -/
theorem mem_heads (f : FunctionEntry) {b : Address} :
    b ∈ (stored.tables.view m).heads f ↔ b = f.start ∨ f.start < b ∧ b < f.stop ∧ IsHead t.items b :=
  mem_headsFrom accepted m (by omega)

theorem heads_increasing (f : FunctionEntry) : ((stored.tables.view m).heads f).Pairwise (· < ·) :=
  headsFrom_increasing accepted m (by omega)

end Snapshot
end BinAtlas
