import BinAtlas.Atlas
import BinAtlas.Proofs.Listing
import BinAtlas.Proofs.Session.ByteStore

/-! Lines cover the address space without meeting. A line keeps nothing but the address of its head, and all it
says is looked up again from there. Where no two items share a place, what is looked up is the item that the
line was asked for, or nothing in a gap, so a line says the same from each of its places and no place has two. -/

namespace BinAtlas

def Line.places (line : Line) : Set Nat := Set.Ico line.address.toNat (line.address.toNat + line.size.toNat)

/-- Every address but the last has a line around it, items are lines and so is each byte of a gap; two lines are
the same or have no place in common. The last address is in no item, and a line there has no room. -/
structure Tiles (items : List Item) (line : Address → Line) : Prop where
  around : ∀ a, a ≠ Address.bad → a.toNat ∈ (line a).places
  ofItem : ∀ i ∈ items, ∀ a, a.toNat ∈ i.places →
    (line a).address = i.address ∧ (line a).size.toNat = max i.size.toNat 1 ∧ (line a).isCode = i.isCode
  ofGap : ∀ a, a ≠ Address.bad → (∀ i ∈ items, a.toNat ∉ i.places) →
    (line a).address = a ∧ (line a).size = 1 ∧ (line a).isCode = false
  same : ∀ a b, b.toNat ∈ (line a).places → line b = line a
  apart : ∀ a b, b.toNat ∉ (line a).places → Disjoint (line a).places (line b).places
  last : (line Address.bad).address = Address.bad ∧ (line Address.bad).size = 0

namespace Snapshot

variable {t : Snapshot} {stored : Stored} (accepted : t.load = .ok stored) (m : Image) {a : Address} {i : Item}

include accepted

theorem getLine_of_item (apart : Apart Item.places t.items) (hi : i ∈ t.items) (ha : a.toNat ∈ i.places) :
    (stored.tables.view m).getLine a = (stored.tables.view m).lineAt i.address := by
  rw [View.getLine, itemHead_of_some m ((itemAt_eq_some_iff accepted apart).2 ⟨hi, ha⟩)]

theorem getLine_of_gap (ha : ∀ i ∈ t.items, a.toNat ∉ i.places) :
    (stored.tables.view m).getLine a = (stored.tables.view m).lineAt a := by
  rw [View.getLine, itemHead_of_none m ((itemAt_eq_none_iff accepted).2 ha)]

/-- The line at the head of an item takes up the places of the item. -/
theorem places_lineAt_item (apart : Apart Item.places t.items) (hi : i ∈ t.items) :
    ((stored.tables.view m).lineAt i.address).places = i.places := by
  have fits := (load_eq_ok_iff.1 accepted).1.items i hi
  have hsize : ((stored.tables.view m).lineAt i.address).size = i.extent :=
    sizeAt_of_some m (itemAt_address accepted apart hi) fits
  rw [Line.places, hsize, Item.toNat_extent]
  rfl

/-- The size of a line in a gap is that of a byte, and none at the last address. -/
theorem size_lineAt_gap (gap : ∀ i ∈ t.items, a.toNat ∉ i.places) :
    ((stored.tables.view m).lineAt a).size = if a = Address.bad then 0 else 1 :=
  sizeAt_of_none m ((itemAt_eq_none_iff accepted).2 gap)

/-- A place is in the line around an address if it is in an item with the address, or is the address itself. -/
theorem mem_places_getLine_iff (apart : Apart Item.places t.items) {n : Nat} :
    n ∈ ((stored.tables.view m).getLine a).places ↔
      (∃ i ∈ t.items, a.toNat ∈ i.places ∧ n ∈ i.places) ∨
        (∀ i ∈ t.items, a.toNat ∉ i.places) ∧ a ≠ Address.bad ∧ n = a.toNat := by
  rcases Item.around_or_gap t.items a with ⟨i, hi, ha⟩ | gap
  · rw [getLine_of_item accepted m apart hi ha, places_lineAt_item accepted m apart hi]
    constructor
    · intro hn
      exact .inl ⟨i, hi, ha, hn⟩
    · rintro (⟨j, hj, haj, hn⟩ | ⟨gap, -⟩)
      · rwa [apart.eq_of_mem hi hj ha haj]
      · exact absurd ha (gap i hi)
  · have hplaces : n ∈ ((stored.tables.view m).lineAt a).places ↔ a ≠ Address.bad ∧ n = a.toNat := by
      rw [Line.places, size_lineAt_gap accepted m gap, Set.mem_Ico]
      change a.toNat ≤ n ∧ n < a.toNat + _ ↔ _
      split_ifs with hlast
      · rw [UInt64.toNat_zero]
        exact iff_of_false (by omega) fun h => h.1 hlast
      · rw [UInt64.toNat_one, and_iff_right hlast]
        omega
    rw [getLine_of_gap accepted m gap, hplaces, and_iff_right gap, or_iff_right]
    rintro ⟨i, hi, ha, -⟩
    exact gap i hi ha

theorem tiles_getLine (apart : Apart Item.places t.items) : Tiles t.items (stored.tables.view m).getLine := by
  have hmem := fun (a : Address) (n : Nat) => mem_places_getLine_iff accepted m apart (a := a) (n := n)
  constructor
  case around =>
    intro a hlast
    rw [hmem]
    rcases Item.around_or_gap t.items a with ⟨i, hi, hai⟩ | gap
    · exact .inl ⟨i, hi, hai, hai⟩
    · exact .inr ⟨gap, hlast, rfl⟩
  case ofItem =>
    intro i hi a ha
    have hfound := itemAt_address accepted apart hi
    have hsize := sizeAt_of_some m hfound ((load_eq_ok_iff.1 accepted).1.items i hi)
    rw [getLine_of_item accepted m apart hi ha]
    exact ⟨rfl, (congrArg UInt64.toNat hsize).trans i.toNat_extent, isCode_of_some m hfound⟩
  case ofGap =>
    intro a hlast gap
    have hsize := size_lineAt_gap accepted m gap
    rw [if_neg hlast] at hsize
    rw [getLine_of_gap accepted m gap]
    exact ⟨rfl, hsize, isCode_of_none m ((itemAt_eq_none_iff accepted).2 gap)⟩
  case same =>
    intro a b hb
    rcases (hmem a b.toNat).1 hb with ⟨i, hi, ha, hb⟩ | ⟨-, -, heq⟩
    · rw [getLine_of_item accepted m apart hi ha, getLine_of_item accepted m apart hi hb]
    · rw [UInt64.toNat_inj.1 heq]
  case apart =>
    intro a b hb
    refine Set.disjoint_left.2 fun n hna hnb => hb ?_
    rw [hmem] at hna hnb ⊢
    rcases hna with ⟨i, hi, hai, hni⟩ | ⟨gapa, hlast, hn⟩
    · rcases hnb with ⟨j, hj, hbj, hnj⟩ | ⟨-, -, rfl⟩
      · obtain rfl := apart.eq_of_mem hi hj hni hnj
        exact .inl ⟨i, hi, hai, hbj⟩
      · exact .inl ⟨i, hi, hai, hni⟩
    · rcases hnb with ⟨j, hj, -, hnj⟩ | ⟨-, -, hnb⟩
      · exact absurd (hn ▸ hnj) (gapa j hj)
      · exact .inr ⟨gapa, hlast, hnb.symm.trans hn⟩
  case last =>
    have gap : ∀ i ∈ t.items, Address.bad.toNat ∉ i.places := by
      intro i hi hmem
      have fits : i.address.toNat + i.extent.toNat < 2 ^ 64 := (load_eq_ok_iff.1 accepted).1.items i hi
      have hlt : 2 ^ 64 - 1 < i.address.toNat + max i.size.toNat 1 := (Set.mem_Ico.1 hmem).2
      rw [← i.toNat_extent] at hlt
      omega
    rw [getLine_of_gap accepted m gap]
    exact ⟨rfl, (size_lineAt_gap accepted m gap).trans (if_pos rfl)⟩

end Snapshot

namespace Session

/-- The lines of a session tile the address space at every moment of every run. -/
theorem tiles_run {t : Snapshot} {stored : Stored} (accepted : t.load = .ok stored)
    (apart : Apart Item.places t.items) (capacity : Nat) (ops : List Operation) :
    let s := (run (stored.session capacity) ops).2
    ∃ line : Address → Line, (∀ a, (perform (.getLine a) s).1 = .line (line a)) ∧ Tiles t.items line := by
  intro s
  have hview : s.view = stored.tables.view s.memory := view_eq (host_run _ ops)
  refine ⟨s.view.getLine, fun a => rfl, ?_⟩
  rw [hview]
  exact Snapshot.tiles_getLine accepted s.memory apart

/-- Items without a size, next to each other and up to the last address that an item can have, in no order. -/
def tightItems : Snapshot :=
  { memory := [⟨0x1000, #[0x90, 0xc3]⟩]
    items := [⟨0xfffffffffffffffd, 2, false, some "top", none, none⟩, ⟨0x1001, 0, true, none, none, none⟩,
      ⟨0x1002, 8, false, none, none, none⟩, ⟨0x1000, 1, true, some "start", none, none⟩] }

/-- The line of an item, asked for from its last place after a write, and the gap behind it. -/
theorem tiles_run_tight : ∃ stored, tightItems.load = .ok stored ∧
    let s := (run (stored.session 1) [.writeBytes 0x1000 [0xcc], .getLine 0x1009]).2
    ∃ line : Address → Line, (∀ a, (perform (.getLine a) s).1 = .line (line a)) ∧
      Tiles tightItems.items line ∧ (line 0x1009).address = 0x1002 ∧ line 0x1002 = line 0x1009 ∧
      Disjoint (line 0x1009).places (line 0x100a).places := by
  have accepted := Snapshot.load_eq_ok_iff.2 ⟨(Snapshot.flaw?_eq_none_iff tightItems).1 rfl, rfl⟩
  have apart : Apart Item.places tightItems.items := by
    simp [Apart, Item.places, tightItems, Set.Ico_disjoint_Ico]
  obtain ⟨line, hline, htiles⟩ := tiles_run accepted apart 1 [.writeBytes 0x1000 [0xcc], .getLine 0x1009]
  obtain ⟨haddress, hsize, -⟩ := htiles.ofItem ⟨0x1002, 8, false, none, none, none⟩ (by decide) 0x1009
    (by simp [Item.places])
  have hplaces : (line 0x1009).places = Set.Ico 0x1002 0x100a := by
    rw [Line.places, haddress, hsize]
    rfl
  refine ⟨_, accepted, line, hline, htiles, haddress, htiles.same _ _ ?_, htiles.apart _ _ ?_⟩
  · rw [hplaces]
    simp
  · rw [hplaces]
    simp

end Session
end BinAtlas
