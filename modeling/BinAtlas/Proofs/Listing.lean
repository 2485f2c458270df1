import BinAtlas.Proofs.Enumeration
import BinAtlas.Proofs.Heads
import BinAtlas.Proofs.Places

/-! Items that lie apart. The head, the end, the code flag and the type at an address are four searches of the
table, and those for a head are made again at that head. Where no two items share a place, all of them find
the one item around the address; where there is none, they agree on that. -/

namespace BinAtlas.Snapshot

/-- The name of the first function that starts at an address. -/
def functionNameAt (s : Snapshot) (a : Address) : Option String :=
  (s.functions.find? fun f => f.start == a).bind (·.name)

section Tables

variable {s : Snapshot} (m : Image) {a : Address} {i : Item}

theorem itemHead_of_some (h : s.itemAt a = some i) : (s.view m).itemHead a = i.address := by
  change ((s.itemAt a).map (·.address)).getD a = i.address
  rw [h]
  rfl

theorem itemHead_of_none (h : s.itemAt a = none) : (s.view m).itemHead a = a := by
  change ((s.itemAt a).map (·.address)).getD a = a
  rw [h]
  rfl

theorem itemType_of_some (h : s.itemAt a = some i) :
    (s.view m).itemType a = i.type.map fun name => (s.namedType name).getD (.named name i.size) := by
  change (s.itemAt a).bind _ = _
  rw [h, Option.bind_some]
  cases i.type <;> rfl

theorem itemType_of_none (h : s.itemAt a = none) : (s.view m).itemType a = none := by
  change (s.itemAt a).bind _ = none
  rw [h]
  rfl

theorem isCode_of_some (h : s.itemAt a = some i) : (s.view m).isCode a = i.isCode := by
  change (s.itemAt a).any (·.isCode) = i.isCode
  rw [h]
  rfl

theorem isCode_of_none (h : s.itemAt a = none) : (s.view m).isCode a = false := by
  change (s.itemAt a).any (·.isCode) = false
  rw [h]
  rfl

/-- From its start to its end an item has its extent, since the end is an address. -/
theorem sizeAt_of_some (h : s.itemAt i.address = some i) (fits : i.address.toNat + i.extent.toNat < UInt64.size) :
    (s.view m).sizeAt i.address = i.extent := by
  obtain ⟨stop, hstop⟩ := Option.isSome_iff_exists.1 (Address.plus?_isSome_iff.2 fits)
  have hend : (s.view m).itemEnd i.address = stop := by
    change ((s.itemAt i.address).bind Item.stop?).getD _ = stop
    rw [h, Option.bind_some, Item.stop?, hstop]
    rfl
  rw [View.sizeAt, hend, ← UInt64.toNat_inj, Address.toNat_saturatingSub, Address.plus?_eq_some_iff.1 hstop]
  omega

/-- An address in no item has a size of one byte, but for the last one, which has no address after it. -/
theorem sizeAt_of_none (h : s.itemAt a = none) : (s.view m).sizeAt a = if a = Address.bad then 0 else 1 := by
  have hend : (s.view m).itemEnd a = Address.saturatingAdd a 1 := by
    change ((s.itemAt a).bind Item.stop?).getD _ = _
    rw [h]
    rfl
  rw [View.sizeAt, hend, ← UInt64.toNat_inj, Address.toNat_saturatingSub]
  split_ifs with hlast
  · rw [hlast]
    rfl
  · have hlt : a.toNat + (1 : UInt64).toNat < UInt64.size := by
      have hne : a.toNat ≠ Address.bad.toNat := fun heq => hlast (UInt64.toNat_inj.1 heq)
      have hsize := Address.toNat_lt_size a
      change a.toNat + 1 < 2 ^ 64
      change a.toNat ≠ 2 ^ 64 - 1 at hne
      change a.toNat < 2 ^ 64 at hsize
      omega
    rw [Address.toNat_saturatingAdd hlt]
    omega

end Tables

variable {t : Snapshot} {stored : Stored} (accepted : t.load = .ok stored) {a : Address} {i : Item}

include accepted

theorem itemAt_eq_some_iff (apart : Apart Item.places t.items) :
    stored.tables.itemAt a = some i ↔ i ∈ t.items ∧ a.toNat ∈ i.places := by
  have hperm := (items_of_load accepted).perm
  rw [itemAt, (apart.perm hperm).find?_eq_some_iff fun j _ => Item.covers_iff, hperm.mem_iff]

theorem itemAt_eq_none_iff : stored.tables.itemAt a = none ↔ ∀ i ∈ t.items, a.toNat ∉ i.places := by
  have hperm := (items_of_load accepted).perm
  simp only [itemAt, List.find?_eq_none, Item.covers_iff, hperm.mem_iff]

/-- The search at the start of an item finds that item. -/
theorem itemAt_address (apart : Apart Item.places t.items) (hi : i ∈ t.items) :
    stored.tables.itemAt i.address = some i :=
  (itemAt_eq_some_iff accepted apart).2 ⟨hi, i.address_mem_places⟩

/-- Which of the names at an address is found does not depend on the order that loading gives the tables. -/
theorem nameAt_of_load (a : Address) : stored.tables.nameAt a = t.nameAt a := by
  have hitems := (items_of_load accepted).find?_key a
  have hfunctions := (arranged_sorted t).find?_key a
  rw [← functions_of_load accepted] at hfunctions
  rw [nameAt, nameAt, hitems, hfunctions]

/-- At the start of an item the name is its own, and that of a function only where it has none. -/
theorem nameAt_address (apart : Apart Item.places t.items) (hi : i ∈ t.items) :
    stored.tables.nameAt i.address = (i.name <|> t.functionNameAt i.address) := by
  have hsome : (t.items.find? fun j => j.address == i.address).isSome :=
    List.find?_isSome.2 ⟨i, hi, beq_self_eq_true i.address⟩
  obtain ⟨j, hfind⟩ := Option.isSome_iff_exists.1 hsome
  have haddress : j.address = i.address := by simpa using List.find?_some hfind
  obtain rfl : j = i :=
    apart.eq_of_mem (List.mem_of_find?_eq_some hfind) hi j.address_mem_places (haddress ▸ i.address_mem_places)
  rw [nameAt_of_load accepted, nameAt, hfind]
  rfl

/-- In no item there is no name but that of a function. -/
theorem nameAt_gap (gap : ∀ i ∈ t.items, a.toNat ∉ i.places) :
    stored.tables.nameAt a = t.functionNameAt a := by
  have hnone : (t.items.find? fun i => i.address == a) = none := by
    rw [List.find?_eq_none]
    intro i hi haddress
    rw [beq_iff_eq] at haddress
    exact gap i hi (haddress ▸ i.address_mem_places)
  rw [nameAt_of_load accepted, nameAt, hnone]
  rfl

end BinAtlas.Snapshot
