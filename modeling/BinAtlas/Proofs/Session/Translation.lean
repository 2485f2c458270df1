import BinAtlas.Atlas
import BinAtlas.Proofs.Loading
import BinAtlas.Proofs.Places
import BinAtlas.Proofs.Session.Memoization
import Mathlib.Algebra.Group.Nat.Defs

/-! Addresses and file offsets. Each direction searches the file regions on its own and has its own
sign for nothing. An answer is a word as far into the region found as the word asked for; where no
two regions share an address or an offset, both searches find the same region, and the directions
are inverse to each other. -/

namespace BinAtlas

namespace FileRegion

/-- An address and an offset equally far into the region. -/
def Maps (r : FileRegion) (a : Address) (o : UInt64) : Prop :=
  ∃ k < r.size.toNat, a.toNat = r.address.toNat + k ∧ o.toNat = r.offset.toNat + k

variable {r : FileRegion} {a b : Address} {o p : UInt64}

theorem Maps.mem_addresses (h : r.Maps a o) : a.toNat ∈ r.addresses := by
  obtain ⟨k, hk, ha, -⟩ := h
  rw [addresses, Set.mem_Ico]
  omega

theorem Maps.mem_offsets (h : r.Maps a o) : o.toNat ∈ r.offsets := by
  obtain ⟨k, hk, -, ho⟩ := h
  rw [offsets, Set.mem_Ico]
  omega

theorem Maps.address_unique (h : r.Maps a o) (h' : r.Maps b o) : a = b := by
  obtain ⟨k, -, ha, ho⟩ := h
  obtain ⟨j, -, hb, ho'⟩ := h'
  rw [← UInt64.toNat_inj]
  omega

theorem Maps.offset_unique (h : r.Maps a o) (h' : r.Maps a p) : o = p := by
  obtain ⟨k, -, ha, ho⟩ := h
  obtain ⟨j, -, ha', hp⟩ := h'
  rw [← UInt64.toNat_inj]
  omega

/-- The sum that the search by offset answers is an address, and not the last one. -/
theorem maps_address (hr : r.address.toNat + r.size.toNat < UInt64.size) (ho : r.coversOffset o) :
    r.Maps (r.address + (o - r.offset)) o ∧ r.address + (o - r.offset) ≠ Address.bad := by
  obtain ⟨hle, hlt⟩ := coversOffset_iff.1 ho
  have hsub := UInt64.toNat_sub_of_le o r.offset (UInt64.le_iff_toNat_le.2 hle)
  have hadd : (r.address + (o - r.offset)).toNat = r.address.toNat + (o.toNat - r.offset.toNat) := by
    rw [Address.toNat_add_of_lt (by omega), hsub]
  refine ⟨⟨o.toNat - r.offset.toNat, by omega, hadd, by omega⟩, ?_⟩
  intro hbad
  have hlast : (r.address + (o - r.offset)).toNat = UInt64.size - 1 := by
    rw [hbad]
    rfl
  omega

theorem maps_offset (hr : r.offset.toNat + r.size.toNat < UInt64.size) (ha : r.coversAddress a) :
    r.Maps a (r.offset + (a - r.address)) := by
  obtain ⟨hle, hlt⟩ := coversAddress_iff.1 ha
  have hsub := UInt64.toNat_sub_of_le a r.address (UInt64.le_iff_toNat_le.2 hle)
  have hadd : (r.offset + (a - r.address)).toNat = r.offset.toNat + (a.toNat - r.address.toNat) := by
    rw [Address.toNat_add_of_lt (by omega), hsub]
  exact ⟨a.toNat - r.address.toNat, by omega, by omega, hadd⟩

end FileRegion

namespace Lookups

variable {l : Lookups} {a : Address} {o : UInt64}

theorem virtualAddress_eq_ok_iff : l.virtualAddress o = .ok a ↔ l.addressOfOffset o = a ∧ a ≠ Address.bad := by
  unfold virtualAddress
  dsimp only
  split_ifs with h
  · refine iff_of_false nofun ?_
    rintro ⟨rfl, hne⟩
    exact hne h
  · rw [Except.ok.injEq]
    constructor
    · rintro rfl
      exact ⟨rfl, h⟩
    · intro ha
      exact ha.1

theorem fileOffset_eq_ok_iff :
    l.fileOffset a = .ok o ↔ 0 ≤ l.offsetOfAddress a ∧ (l.offsetOfAddress a).toNat.toUInt64 = o := by
  unfold fileOffset
  dsimp only
  split_ifs with h
  · refine iff_of_false nofun ?_
    rintro ⟨hle, -⟩
    omega
  · rw [Except.ok.injEq]
    constructor
    · intro ho
      exact ⟨by omega, ho⟩
    · intro ho
      exact ho.2

end Lookups

namespace Snapshot

variable {t : Snapshot}

/-- The regions that loading accepts. -/
def Fitting (t : Snapshot) : Prop := ∀ r ∈ t.fileRegions,
  r.address.toNat + r.size.toNat < UInt64.size ∧ r.offset.toNat + r.size.toNat < UInt64.size

/-- The sign for nothing is no address of a region, so every region found gives an answer. -/
theorem virtualAddress_eq_ok_iff (fitting : t.Fitting) {o : UInt64} {a : Address} :
    t.lookups.virtualAddress o = .ok a ↔ ∃ r, t.fileRegions.find? (·.coversOffset o) = some r ∧ r.Maps a o := by
  rw [Lookups.virtualAddress_eq_ok_iff]
  change t.addressOfOffset o = a ∧ _ ↔ _
  unfold addressOfOffset
  cases hfind : t.fileRegions.find? (·.coversOffset o) with
  | none =>
    refine iff_of_false ?_ (by simp)
    rintro ⟨rfl, hne⟩
    exact hne rfl
  | some r =>
    have hcov := List.find?_some hfind
    obtain ⟨hmaps, hgood⟩ := FileRegion.maps_address (fitting r (List.mem_of_find?_eq_some hfind)).1 hcov
    simp only [Option.some.injEq, exists_eq_left']
    constructor
    · rintro ⟨rfl, -⟩
      exact hmaps
    · intro h
      obtain rfl := hmaps.address_unique h
      exact ⟨rfl, hgood⟩

/-- An offset past the signed words is refused, although the region is found. -/
theorem fileOffset_eq_ok_iff (fitting : t.Fitting) {a : Address} {o : UInt64} :
    t.lookups.fileOffset a = .ok o ↔
      o.toNat < signBit ∧ ∃ r, t.fileRegions.find? (·.coversAddress a) = some r ∧ r.Maps a o := by
  rw [Lookups.fileOffset_eq_ok_iff]
  change 0 ≤ t.offsetOfAddress a ∧ (t.offsetOfAddress a).toNat.toUInt64 = o ↔ _
  unfold offsetOfAddress
  cases hfind : t.fileRegions.find? (·.coversAddress a) with
  | none => simp
  | some r =>
    have hcov := List.find?_some hfind
    have hmaps := FileRegion.maps_offset (fitting r (List.mem_of_find?_eq_some hfind)).2 hcov
    simp only [Option.some.injEq, exists_eq_left']
    split_ifs with hsmall
    · rw [Int.toNat_natCast, Address.toUInt64_toNat]
      constructor
      · rintro ⟨-, rfl⟩
        exact ⟨hsmall, hmaps⟩
      · rintro ⟨-, h⟩
        exact ⟨by omega, hmaps.offset_unique h⟩
    · refine iff_of_false (by simp) ?_
      rintro ⟨ho, h⟩
      rw [hmaps.offset_unique h] at hsmall
      exact hsmall ho

/-- Where no two regions meet, an answer of either search is a pair of one of the regions. -/
theorem virtualAddress_eq_ok_iff_of_apart (fitting : t.Fitting) (apart : Apart FileRegion.offsets t.fileRegions)
    {o : UInt64} {a : Address} : t.lookups.virtualAddress o = .ok a ↔ ∃ r ∈ t.fileRegions, r.Maps a o := by
  rw [virtualAddress_eq_ok_iff fitting]
  simp only [apart.find?_eq_some_iff fun r _ => FileRegion.coversOffset_iff]
  constructor
  · rintro ⟨r, ⟨hr, -⟩, hmaps⟩
    exact ⟨r, hr, hmaps⟩
  · rintro ⟨r, hr, hmaps⟩
    exact ⟨r, ⟨hr, hmaps.mem_offsets⟩, hmaps⟩

theorem fileOffset_eq_ok_iff_of_apart (fitting : t.Fitting) (apart : Apart FileRegion.addresses t.fileRegions)
    {a : Address} {o : UInt64} :
    t.lookups.fileOffset a = .ok o ↔ o.toNat < signBit ∧ ∃ r ∈ t.fileRegions, r.Maps a o := by
  rw [fileOffset_eq_ok_iff fitting]
  simp only [apart.find?_eq_some_iff fun r _ => FileRegion.coversAddress_iff]
  refine and_congr_right fun _ => ?_
  constructor
  · rintro ⟨r, ⟨hr, -⟩, hmaps⟩
    exact ⟨r, hr, hmaps⟩
  · rintro ⟨r, hr, hmaps⟩
    exact ⟨r, ⟨hr, hmaps.mem_addresses⟩, hmaps⟩

end Snapshot

namespace Session

variable {σ : Type}

/-- What a session says of addresses and offsets. An offset is found where a region has it, whatever the
regions share; where they share nothing, the two directions are inverse on the offsets that are no
negative numbers as signed words. -/
structure Translates (regions : List FileRegion) (s : Session σ) : Prop where
  found : ∀ o, (∃ a, (perform (.getVirtualAddress o) s).1 = .word (.ok a)) ↔ ∃ r ∈ regions, o.toNat ∈ r.offsets
  good : ∀ o a, (perform (.getVirtualAddress o) s).1 = .word (.ok a) → a ≠ Address.bad
  small : ∀ a o, (perform (.getFileOffset a) s).1 = .word (.ok o) → o.toNat < 2 ^ 63
  inverse : Apart FileRegion.addresses regions → Apart FileRegion.offsets regions → ∀ a o, o.toNat < 2 ^ 63 →
    ((perform (.getFileOffset a) s).1 = .word (.ok o) ↔ (perform (.getVirtualAddress o) s).1 = .word (.ok a))

theorem translates_of_looksUp {t : Snapshot} (fitting : t.Fitting) {s : Session σ} (h : LooksUp t.lookups s) :
    Translates t.fileRegions s := by
  constructor
  · intro o
    simp only [h.virtualAddress_eq, Answer.word.injEq, Snapshot.virtualAddress_eq_ok_iff fitting]
    constructor
    · rintro ⟨a, r, hfind, hmaps⟩
      exact ⟨r, List.mem_of_find?_eq_some hfind, hmaps.mem_offsets⟩
    · rintro ⟨q, hq, ho⟩
      have hsome : (t.fileRegions.find? (·.coversOffset o)).isSome :=
        List.find?_isSome.2 ⟨q, hq, FileRegion.coversOffset_iff.2 ho⟩
      obtain ⟨r, hfind⟩ := Option.isSome_iff_exists.1 hsome
      have hcov : r.coversOffset o := by simpa using List.find?_some hfind
      have hr := (fitting r (List.mem_of_find?_eq_some hfind)).1
      exact ⟨_, r, hfind, (FileRegion.maps_address hr hcov).1⟩
  · intro o a ha
    rw [h.virtualAddress_eq, Answer.word.injEq, Lookups.virtualAddress_eq_ok_iff] at ha
    exact ha.2
  · intro a o ho
    rw [h.fileOffset_eq, Answer.word.injEq, Snapshot.fileOffset_eq_ok_iff fitting] at ho
    exact ho.1
  · intro addresses offsets a o ho
    rw [h.virtualAddress_eq, h.fileOffset_eq, Answer.word.injEq, Answer.word.injEq,
      Snapshot.virtualAddress_eq_ok_iff_of_apart fitting offsets,
      Snapshot.fileOffset_eq_ok_iff_of_apart fitting addresses]
    exact and_iff_right ho

/-- Addresses and offsets are translated in this way at every moment of every run. -/
theorem translates_run {t : Snapshot} {stored : Stored} (accepted : t.load = .ok stored) (capacity : Nat)
    (ops : List Operation) : Translates t.fileRegions (run (stored.session capacity) ops).2 := by
  obtain ⟨sound, hstored⟩ := Snapshot.load_eq_ok_iff.1 accepted
  have hregions : stored.tables.fileRegions = t.fileRegions := by rw [hstored]
  have hlooks : LooksUp stored.tables.lookups (run (stored.session capacity) ops).2 :=
    looksUp_run stored.tables.host stored.image capacity ops
  have hfitting : stored.tables.Fitting := by
    intro r hr
    exact sound.fileRegions r (hregions ▸ hr)
  rw [← hregions]
  exact translates_of_looksUp hfitting hlooks

/-- Regions that end with the address space and go beyond the signed words, and an empty one within
another. -/
def farRegions : Snapshot :=
  { fileRegions := [⟨0x500000, 0x7ffffffffffffff8, 0x10⟩, ⟨0xffffffffffffff00, 0, 0xff⟩, ⟨0x500004, 8, 0⟩] }

/-- The last offset of a region that has an answer both ways, and the one after it. -/
theorem translates_run_far : ∃ stored, farRegions.load = .ok stored ∧
    let s := (run (stored.session 1) [.getFileOffset 0x500007, .getVirtualAddress 0xfe, .clearCaches]).2
    Translates farRegions.fileRegions s ∧
    ((perform (.getFileOffset 0x500007) s).1 = .word (.ok 0x7fffffffffffffff) ↔
      (perform (.getVirtualAddress 0x7fffffffffffffff) s).1 = .word (.ok 0x500007)) ∧
    ∃ a, (perform (.getVirtualAddress 0x8000000000000000) s).1 = .word (.ok a) := by
  have accepted := Snapshot.load_eq_ok_iff.2 ⟨(Snapshot.flaw?_eq_none_iff farRegions).1 rfl, rfl⟩
  have htranslates := translates_run accepted 1 [.getFileOffset 0x500007, .getVirtualAddress 0xfe, .clearCaches]
  refine ⟨_, accepted, htranslates, htranslates.inverse ?_ ?_ _ _ (by decide), (htranslates.found _).2 ?_⟩
  · simp [Apart, FileRegion.addresses, farRegions, Set.Ico_disjoint_Ico]
  · simp [Apart, FileRegion.offsets, farRegions, Set.Ico_disjoint_Ico]
  · exact ⟨⟨0x500000, 0x7ffffffffffffff8, 0x10⟩, List.mem_cons_self, by decide, by decide⟩

end Session
end BinAtlas
