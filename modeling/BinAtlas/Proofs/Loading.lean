import BinAtlas.Snapshot.Loading
import BinAtlas.Proofs.Arranged
import BinAtlas.Proofs.Image

/-! What an accepted snapshot is: every entry lies in the address space, and the loaded bytes are
the regions of the document in the order of their starts. -/

namespace BinAtlas

namespace Snapshot

/-- No entry ends before it starts or past the last address. -/
structure Sound (t : Snapshot) : Prop where
  functions : ∀ f ∈ t.functions, f.start ≤ f.stop
  segments : ∀ g ∈ t.segments, g.start ≤ g.stop
  memory : ∀ r ∈ t.memory, r.start.toNat + r.bytes.size < UInt64.size
  fileRegions : ∀ r ∈ t.fileRegions,
    r.address.toNat + r.size.toNat < UInt64.size ∧ r.offset.toNat + r.size.toNat < UInt64.size
  items : ∀ i ∈ t.items, i.address.toNat + i.extent.toNat < UInt64.size

theorem flaw?_eq_none_iff (t : Snapshot) : t.flaw? = none ↔ t.Sound := by
  simp only [flaw?, Option.orElse_eq_orElse, Option.orElse_eq_or, Option.or_eq_none_iff, Option.map_eq_none_iff,
    List.find?_eq_none, decide_eq_true_eq, UInt64.not_lt, Bool.not_eq_true', Bool.not_eq_false, Option.isNone_iff_eq_none,
    FileRegion.fits, Bool.and_eq_true, Region.stop?, Item.stop?, Address.plus?_eq_none_iff,
    Address.plus?_isSome_iff, Nat.not_le]
  constructor
  · rintro ⟨hf, hg, hm, hr, hi⟩
    exact ⟨hf, hg, hm, hr, hi⟩
  · intro h
    exact ⟨h.functions, h.segments, h.memory, h.fileRegions, h.items⟩

/-- Loading puts the tables that are searched by address in order and takes the memory out. -/
theorem load_eq_ok_iff {t : Snapshot} {stored : Stored} :
    t.load = .ok stored ↔ t.Sound ∧ stored =
      { tables :=
          { t with
            functions := t.functions.mergeSort fun f g => f.start ≤ g.start
            items := t.items.mergeSort fun i j => i.address ≤ j.address
            memory := [] }
        image := t.memory.mergeSort fun r s => r.start ≤ s.start } := by
  rw [← flaw?_eq_none_iff]
  unfold load
  cases h : t.flaw? with
  | none => simp [eq_comm]
  | some what => simp

end Snapshot

/-- Whether a region has a byte for a number. -/
def Loaded (regions : List Region) (n : Nat) : Prop :=
  ∃ r ∈ regions, r.start.toNat ≤ n ∧ n < r.start.toNat + r.bytes.size

/-- The byte that regions give a number: that of a region around it, and none of those starts before. -/
def Given (regions : List Region) (n : Nat) (b : UInt8) : Prop :=
  ∃ r ∈ regions, r.start.toNat ≤ n ∧ r.bytes[n - r.start.toNat]? = some b ∧
    ∀ q ∈ regions, q.start.toNat ≤ n → n < q.start.toNat + q.bytes.size → r.start.toNat ≤ q.start.toNat

/-- In the order of their starts the first region that has the byte is the one. -/
theorem Image.given_of_byte? {m : Image} (sorted : m.Pairwise fun r s => r.start ≤ s.start) {a : Address} {b : UInt8}
    (h : m.byte? a = some b) : Given m a.toNat b := by
  induction m with
  | nil => cases h
  | cons r rs ih =>
    obtain ⟨hfirst, hrest⟩ := List.pairwise_cons.1 sorted
    rw [Image.byte?_cons] at h
    by_cases hc : r.covers a
    · obtain ⟨c, hr⟩ := Region.exists_byte? hc
      have hle := (Region.covers_iff.1 hc).1
      rw [hr, Option.some_or] at h
      rw [Region.byte?_eq, if_pos hle, h] at hr
      refine ⟨r, List.mem_cons_self, hle, hr, List.forall_mem_cons.2 ⟨fun _ _ => Nat.le_refl _, fun q hq _ _ => ?_⟩⟩
      exact UInt64.le_iff_toNat_le.1 (hfirst q hq)
    · rw [Region.byte?_eq_none hc, Option.none_or] at h
      obtain ⟨s, hs, hle, hbyte, hleast⟩ := ih hrest h
      refine ⟨s, List.mem_cons_of_mem r hs, hle, hbyte, List.forall_mem_cons.2 ⟨fun h1 h2 => ?_, hleast⟩⟩
      exact absurd (Region.covers_iff.2 ⟨h1, h2⟩) hc

theorem Image.byte?_isSome_iff (m : Image) (a : Address) : (m.byte? a).isSome ↔ Loaded m a.toNat := by
  induction m with
  | nil => simp [Image.byte?, Loaded]
  | cons r rs ih =>
    rw [Image.byte?_cons, Option.isSome_or, Bool.or_eq_true, ih]
    simp only [Loaded, List.mem_cons, exists_eq_or_imp, ← Region.covers_iff]
    refine or_congr_left ?_
    by_cases hc : r.covers a
    · obtain ⟨b, hb⟩ := Region.exists_byte? hc
      simp [hb, hc]
    · simp [Region.byte?_eq_none hc, hc]

/-- The loaded addresses are those of the document's regions, whatever their order. -/
theorem Snapshot.contentAt_isSome_iff {t : Snapshot} {stored : Stored} (accepted : t.load = .ok stored) (n : Nat) :
    (stored.image.contentAt n).isSome ↔ Loaded t.memory n := by
  obtain ⟨sound, rfl⟩ := load_eq_ok_iff.1 accepted
  have hperm : Loaded (t.memory.mergeSort fun r s => r.start ≤ s.start) n ↔ Loaded t.memory n := by
    simp only [Loaded, List.mem_mergeSort]
  by_cases hn : n < UInt64.size
  · obtain ⟨a, rfl⟩ : ∃ a : Address, n = a.toNat := ⟨n.toUInt64, (Address.toNat_toUInt64 hn).symm⟩
    rw [Image.contentAt_toNat, Image.byte?_isSome_iff, hperm]
  · rw [Image.contentAt_of_le _ (Nat.not_lt.1 hn)]
    refine iff_of_false Bool.false_ne_true ?_
    rintro ⟨r, hr, hle, hlt⟩
    have := sound.memory r hr
    omega

/-- What is loaded at first is what the document's regions give. -/
theorem Snapshot.given_of_contentAt {t : Snapshot} {stored : Stored} (accepted : t.load = .ok stored) {n : Nat}
    {b : UInt8} (h : stored.image.contentAt n = some b) : Given t.memory n b := by
  obtain ⟨-, rfl⟩ := load_eq_ok_iff.1 accepted
  have hn : n < UInt64.size := by
    refine Nat.lt_of_not_le fun hle => ?_
    rw [Image.contentAt_of_le _ hle] at h
    cases h
  obtain ⟨a, rfl⟩ : ∃ a : Address, n = a.toNat := ⟨n.toUInt64, (Address.toNat_toUInt64 hn).symm⟩
  rw [Image.contentAt_toNat] at h
  have hsorted := (arranged_mergeSort (·.start) t.memory).ordered
  obtain ⟨r, hr, hle, hbyte, hleast⟩ := Image.given_of_byte? hsorted h
  exact ⟨r, List.mem_mergeSort.1 hr, hle, hbyte, fun q hq => hleast q (List.mem_mergeSort.2 hq)⟩

end BinAtlas
