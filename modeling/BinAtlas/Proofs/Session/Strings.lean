import BinAtlas.Proofs.Literal
import BinAtlas.Proofs.Session.ByteStore
import BinAtlas.Proofs.Text

/-! String literals through a session: what was encoded and written is read as the text it was, and whatever
lies in memory is read as some text where the units are wider than bytes. -/

namespace BinAtlas.Session

open Address

/-- What a write of `encoded` with a zero unit of `size` bytes behind it makes of the string there: it is `decoded`,
measured by the host or of any length that has room for the encoding and for a unit. -/
def ReadsBack (s : Session Image) (bits : UInt32) (size : Nat) (encoded decoded : List UInt8) : Prop :=
  ∀ a : Address,
    let after : Answer × Session Image := perform (.writeBytes a (encoded ++ List.replicate size 0)) s
    after.1 = .done (.ok ()) →
      (encoded.length ≤ Image.longestString →
        (perform (.getString a none (some bits)) after.2).1 = .bytes (.ok decoded)) ∧
      ∀ n, encoded.length ≤ n → size ≤ n →
        (perform (.getString a (some n) (some bits)) after.2).1 = .bytes (.ok decoded)

/-- The strings of a session with a byte order. -/
structure ReadsStrings (bigEndian : Bool) (s : Session Image) : Prop where
  narrow : ∀ bytes : List UInt8, (∀ b ∈ bytes, b ≠ 0) → ReadsBack s 8 1 bytes bytes
  wide : ∀ text : String, (∀ c ∈ text.toList, c.toNat ≠ 0) →
    ReadsBack s 16 2 (literal bigEndian 2 (Utf16.encode text.toList)) text.toUTF8.data.toList
  long : ∀ text : String, (∀ c ∈ text.toList, c.toNat ≠ 0) →
    ReadsBack s 32 4 (literal bigEndian 4 (Utf32.encode text.toList)) text.toUTF8.data.toList
  /-- A surrogate without its partner is replaced, and it takes no unit of the texts around it. -/
  lone : ∀ (before after : String) (u : Nat), (∀ c ∈ before.toList, c.toNat ≠ 0) → (∀ c ∈ after.toList, c.toNat ≠ 0) →
    (Utf16.isHigh u || Utf16.isLow u) = true →
    ReadsBack s 16 2 (literal bigEndian 2 (Utf16.encode before.toList ++ u :: Utf16.encode after.toList))
      (before ++ String.singleton Utf8.replacement ++ after).toUTF8.data.toList
  /-- Where the units are wider than bytes, by what is asked or by the host, a string that is read is a text. -/
  valid : ∀ a length bits bytes, (perform (.getString a length bits) s).1 = .bytes (.ok bytes) →
    (bits = none → s.view.stringKind a ≠ .narrow) → bits ≠ some 8 → ∃ text : String, bytes = text.toUTF8.data.toList

/-- Units that are wider than bytes spell characters. -/
theorem exists_text_of_spell {kind : StringKind} (hkind : kind ≠ .narrow) (us : List Nat) :
    ∃ text : String, Image.spell kind us = text.toUTF8.data.toList := by
  have htext : ∀ cs : List Char, ∃ text : String, Utf8.encode cs = text.toUTF8.data.toList := fun cs =>
    ⟨String.ofList cs, by rw [← Utf8.encode_eq_toUTF8, String.toList_ofList]⟩
  cases kind with
  | narrow => exact absurd rfl hkind
  | wide => exact htext _
  | long => exact htext _

theorem exists_text_of_contents {m : Image} {bigEndian : Bool} {a : Address} {n : Nat} {kind : StringKind}
    (hkind : kind ≠ .narrow) {bytes : List UInt8} (h : m.stringContents bigEndian a n kind = some bytes) :
    ∃ text : String, bytes = text.toUTF8.data.toList := by
  unfold Image.stringContents at h
  split_ifs at h
  exact Option.some.inj h ▸ exists_text_of_spell hkind _

theorem eq_eight_of_narrow {bits : UInt32} (h : StringKind.ofBits? bits = some .narrow) : bits = 8 := by
  unfold StringKind.ofBits? at h
  by_cases h8 : bits = 8
  · exact h8
  · rw [if_neg h8] at h
    split_ifs at h <;> cases h

theorem getString_invalid (s : Session Image) (a : Address) (length : Option Nat) {b : UInt32}
    (hb : StringKind.ofBits? b = none) :
    (perform (.getString a length (some b)) s).1 = .bytes (.error (.invalidInput (.bitWidth b))) := by
  change Answer.bytes (s.view.getString a length (some b)) = _
  simp only [View.getString, hb]
  rfl

section Host

variable {t : Snapshot} {s : Session Image} (hhost : s.host = t.host)

include hhost

/-- The string at an address under the width that is asked for, or that of the item. -/
theorem getString_eq (a : Address) (length : Option Nat) (bits : Option UInt32) {kind : StringKind}
    (hkind : bits.elim (some (s.view.stringKind a)) StringKind.ofBits? = some kind) :
    (perform (.getString a length bits) s).1 =
      .bytes (match s.memory.stringContents t.bigEndian a
          (length.getD (s.memory.stringLength t.bigEndian a kind)) kind with
        | some bytes => .ok bytes
        | none => .error (.notFound (.string a))) := by
  change Answer.bytes (s.view.getString a length bits) = _
  rw [view_eq hhost] at hkind ⊢
  cases bits with
  | none =>
    obtain rfl : (t.view s.memory).stringKind a = kind := Option.some.inj hkind
    rfl
  | some b =>
    have hb : StringKind.ofBits? b = some kind := hkind
    simp only [View.getString, hb]
    rfl

theorem readsBack {bits : UInt32} {kind : StringKind} (hkind : StringKind.ofBits? bits = some kind) {us : List Nat}
    (hus : ∀ u ∈ us, u ≠ 0 ∧ u < 256 ^ kind.size) :
    ReadsBack s bits kind.size (literal t.bigEndian kind.size us) (Image.spell kind us) := by
  intro a after hwritten
  have hafter : after.2.host = t.host := (host_perform _ s).trans hhost
  have hholds : after.2.memory.Holds a.toNat
      (literal t.bigEndian kind.size us ++ unitBytes t.bigEndian kind.size 0) := by
    have hloaded := (writeBytes_ok_iff hhost a _).1 hwritten
    rw [unitBytes_zero, show after = _ from perform_writeBytes a _ s, patch_eq hhost]
    exact Image.holds_patch hloaded
  rw [length_literal]
  constructor
  · intro hlimit
    obtain ⟨hlong, hone⟩ := Image.stringLength_of_holds hus hholds hlimit
    rw [getString_eq hafter a none (some bits) hkind, Option.getD_none,
      Image.stringContents_of_holds hus hholds hlong hone]
  · intro n hlong hone
    rw [getString_eq hafter a (some n) (some bits) hkind, Option.getD_some,
      Image.stringContents_of_holds hus hholds hlong hone]

theorem exists_text_of_getString {a : Address} {length : Option Nat} {bits : Option UInt32} {bytes : List UInt8}
    (hread : (perform (.getString a length bits) s).1 = .bytes (.ok bytes))
    (hinferred : bits = none → s.view.stringKind a ≠ .narrow) (hbits : bits ≠ some 8) :
    ∃ text : String, bytes = text.toUTF8.data.toList := by
  cases hkind : bits.elim (some (s.view.stringKind a)) StringKind.ofBits? with
  | none =>
    cases bits with
    | none => cases hkind
    | some b =>
      rw [getString_invalid s a length hkind] at hread
      cases hread
  | some kind =>
    have hwide : kind ≠ .narrow := by
      rintro rfl
      cases bits with
      | none => exact hinferred rfl (Option.some.inj hkind)
      | some b => exact hbits (congrArg some (eq_eight_of_narrow hkind))
    rw [getString_eq hhost a length bits hkind] at hread
    cases hcontents : s.memory.stringContents t.bigEndian a
        (length.getD (s.memory.stringLength t.bigEndian a kind)) kind with
    | none =>
      rw [hcontents] at hread
      cases hread
    | some found =>
      rw [hcontents] at hread
      cases hread
      exact exists_text_of_contents hwide hcontents

theorem readsStrings_of_host : ReadsStrings t.bigEndian s where
  narrow bytes hbytes := by
    have hus : ∀ u ∈ bytes.map (·.toNat), u ≠ 0 ∧ u < 256 ^ StringKind.narrow.size := by
      intro u hu
      obtain ⟨b, hb, rfl⟩ := List.mem_map.1 hu
      exact ⟨fun h => hbytes b hb (UInt8.toNat_inj.1 h), b.toNat_lt⟩
    have hspell : Image.spell .narrow (bytes.map (·.toNat)) = bytes := by
      rw [Image.spell, List.map_map]
      exact List.map_id'' (fun b => UInt8.ofNat_toNat) bytes
    have h := readsBack hhost (rfl : StringKind.ofBits? 8 = some .narrow) hus
    rwa [hspell, StringKind.size, literal_one] at h
  wide text htext := by
    have h := readsBack hhost (rfl : StringKind.ofBits? 16 = some .wide) (Utf16.encode_bounds htext)
    rwa [Image.spell, Utf16.decode_encode, Utf8.encode_eq_toUTF8] at h
  long text htext := by
    have hus : ∀ u ∈ Utf32.encode text.toList, u ≠ 0 ∧ u < 256 ^ StringKind.long.size := by
      intro u hu
      obtain ⟨c, hc, rfl⟩ := List.mem_map.1 hu
      exact ⟨htext c hc, c.val.toNat_lt⟩
    have h := readsBack hhost (rfl : StringKind.ofBits? 32 = some .long) hus
    rwa [Image.spell, Utf32.decode_encode, Utf8.encode_eq_toUTF8] at h
  lone before after u hbefore hafter hu := by
    have hus : ∀ v ∈ Utf16.encode before.toList ++ u :: Utf16.encode after.toList, v ≠ 0 ∧ v < 0x10000 := by
      intro v hv
      rcases List.mem_append.1 hv with hv | hv
      · exact Utf16.encode_bounds hbefore v hv
      · rcases List.mem_cons.1 hv with rfl | hv
        · simp only [Utf16.isHigh, Utf16.isLow, Bool.or_eq_true, Bool.and_eq_true, decide_eq_true_eq] at hu
          omega
        · exact Utf16.encode_bounds hafter v hv
    have htext : (before ++ String.singleton Utf8.replacement ++ after).toList =
        before.toList ++ Utf8.replacement :: after.toList := by simp
    have h := readsBack hhost (rfl : StringKind.ofBits? 16 = some .wide) hus
    rwa [Image.spell, Utf16.decode_lone hu, ← htext, Utf8.encode_eq_toUTF8] at h
  valid a length bits bytes := exists_text_of_getString hhost

end Host

/-- The byte order is that of the snapshot, and any run may have gone before. -/
theorem readsStrings_run {t : Snapshot} {stored : Stored} (accepted : t.load = .ok stored) (capacity : Nat)
    (ops : List Operation) : ReadsStrings t.bigEndian (run (stored.session capacity) ops).2 := by
  have hstored := (Snapshot.load_eq_ok_iff.1 accepted).2
  have horder : stored.tables.bigEndian = t.bigEndian := by rw [hstored]
  exact horder ▸ readsStrings_of_host (host_run (stored.session capacity) ops)

/-- Eight bytes of a machine that stores the high byte first. -/
def eightBytes : Stored := ⟨{ bigEndian := true }, [⟨0x1000, #[9, 9, 9, 9, 9, 9, 9, 9]⟩]⟩

theorem load_eightBytes : Snapshot.load { eightBytes.tables with memory := eightBytes.image } = .ok eightBytes := by
  rw [Snapshot.load_eq_ok_iff, ← Snapshot.flaw?_eq_none_iff]
  simp only [eightBytes, List.mergeSort_nil, List.mergeSort_singleton, and_true]
  rfl

/-- A letter and a pair of surrogates fill the bytes up to the zero unit. -/
theorem readsStrings_run_surrogates :
    let s := (run (eightBytes.session 0) []).2
    let after := perform (.writeBytes 0x1000 [0x00, 0x61, 0xd8, 0x3d, 0xde, 0x00, 0, 0]) s
    after.1 = .done (.ok ()) ∧
      (perform (.getString 0x1000 none (some 16)) after.2).1 = .bytes (.ok [0x61, 0xf0, 0x9f, 0x98, 0x80]) := by
  intro s after
  have hnonzero : ∀ c ∈ (String.ofList ['a', Char.ofNat 0x1F600]).toList, c.toNat ≠ 0 := by
    rw [String.toList_ofList]
    simp only [List.forall_mem_cons]
    exact ⟨by decide, by decide, List.forall_mem_nil _⟩
  have hreads := (readsStrings_run load_eightBytes 0 []).wide _ hnonzero 0x1000
  rw [← Utf8.encode_eq_toUTF8, String.toList_ofList] at hreads
  have hwritten : after.1 = .done (.ok ()) := (writeBytes_ok_iff rfl _ _).2 (by decide)
  exact ⟨hwritten, (hreads hwritten).1 (by decide)⟩

end BinAtlas.Session
