import BinAtlas.Proofs.Hex
import BinAtlas.Snapshot.Decode
import BinAtlas.Snapshot.Encode
import Mathlib.Algebra.Group.Nat.Even

/-! The texts that write bytes. Two digits in a row, of either case, write a byte, and white space does not count. So
what is read from a text depends on its plain form alone, without white space and in small letters, and this is the
text that its bytes are written as again. -/

namespace BinAtlas.Hex

open Numeral

/-- The digits of both cases, and no character beyond ASCII. -/
def digits : List Char := "0123456789abcdefABCDEF".toList

/-- A text without its white space. -/
def solid (cs : List Char) : List Char := cs.filter fun c => !Text.isBlank c

/-- A text without its white space and in small letters. -/
def plain (cs : List Char) : List Char := (solid cs).map Char.toLower

/-- Two characters for each byte: those at twice its place write it. -/
structure InPairs (cs : List Char) (bytes : List UInt8) : Prop where
  length : cs.length = 2 * bytes.length
  pair : ∀ k (hk : k < bytes.length), Writes 16 [cs[2 * k], cs[2 * k + 1]] bytes[k].toNat

/-- Texts that differ in white space, anywhere, and in the case of letters. -/
inductive Variant : List Char → List Char → Prop
  | nil : Variant [] []
  | left {c cs cs'} (blank : Text.isBlank c) (rest : Variant cs cs') : Variant (c :: cs) cs'
  | right {c cs cs'} (blank : Text.isBlank c) (rest : Variant cs cs') : Variant cs (c :: cs')
  | letter {c d cs cs'} (same : c.toLower = d.toLower) (rest : Variant cs cs') : Variant (c :: cs) (d :: cs')

variable {a b c d : Char} {cs cs' : List Char} {bytes : List UInt8}

/-- What holds of a character and itself, and of a capital and its small letter, holds of each one and its small
letter. -/
theorem toLower_cases {P : Char → Char → Prop} (same : ∀ c, P c c)
    (capital : ∀ k < 26, P (Char.ofNat (65 + k)) (Char.ofNat (65 + k)).toLower) (c : Char) : P c c.toLower := by
  by_cases hc : 'A' ≤ c ∧ c ≤ 'Z'
  · exact of_range (P := fun _ c => P c c.toLower) capital hc.1 (Nat.lt_succ_of_le hc.2)
  · have hsame : c.toLower = c := dif_neg hc
    rw [hsame]
    exact same c

theorem isBlank_toLower (c : Char) : Text.isBlank c.toLower = Text.isBlank c :=
  toLower_cases (P := fun c s => Text.isBlank s = Text.isBlank c) (fun _ => rfl) (by decide) c

theorem isBlank_congr (h : c.toLower = d.toLower) : Text.isBlank c = Text.isBlank d := by
  rw [← isBlank_toLower c, h, isBlank_toLower]

theorem digit_iff {n : Nat} : Digit 16 n c ↔ n < 16 ∧ nibble n = c.toLower := by
  constructor
  · have hlower : ∀ n < 16, nibble n = n.digitChar.toLower ∧ nibble n = n.digitChar.toUpper.toLower := by decide
    rintro ⟨hn, rfl | rfl⟩
    · exact ⟨hn, (hlower n hn).1⟩
    · exact ⟨hn, (hlower n hn).2⟩
  · rintro ⟨hn, hc⟩
    have hback : ∀ n < 16, nibble n = c.toLower → c = n.digitChar ∨ c = n.digitChar.toUpper :=
      toLower_cases (P := fun c s => ∀ n < 16, nibble n = s → c = n.digitChar ∨ c = n.digitChar.toUpper)
        (fun _ _ _ h => .inl h.symm) (by decide) c
    exact ⟨hn, hback n hn hc⟩

theorem isSome_digit?_iff : (digit? c).isSome ↔ c ∈ digits := by
  constructor
  · have hlisted : ∀ n < 16, n.digitChar ∈ digits ∧ n.digitChar.toUpper ∈ digits := by decide
    intro h
    obtain ⟨n, hn⟩ := Option.isSome_iff_exists.1 h
    obtain ⟨hlt, rfl | rfl⟩ := digit?_eq_some_iff.1 hn
    · exact (hlisted n hlt).1
    · exact (hlisted n hlt).2
  · have hread : digits.all fun c => (digit? c).isSome := by decide
    exact List.all_eq_true.1 hread c

/-! What two digits write, and what is read and written byte by byte -/

theorem writes_byte_iff {x : UInt8} :
    Writes 16 [a, b] x.toNat ↔ nibble (x.toNat / 16) = a.toLower ∧ nibble (x.toNat % 16) = b.toLower := by
  rw [writes_two_iff]
  simp only [digit_iff]
  constructor
  · rintro ⟨h, l, ⟨hh, ha⟩, ⟨hl, hb⟩, hx⟩
    have hhigh : x.toNat / 16 = h := by omega
    have hlow : x.toNat % 16 = l := by omega
    exact ⟨hhigh ▸ ha, hlow ▸ hb⟩
  · rintro ⟨ha, hb⟩
    exact ⟨_, _, ⟨high_lt x, ha⟩, ⟨low_lt x, hb⟩, Nat.div_add_mod' _ _⟩

theorem decodeChars?_pair_iff : decodeChars? (a :: b :: cs) = some bytes ↔
    ∃ x rest, bytes = x :: rest ∧ Writes 16 [a, b] x.toNat ∧ decodeChars? cs = some rest := by
  simp only [decodeChars?, Option.bind_eq_bind, Option.bind_eq_some_iff, Option.pure_def, Option.some.injEq,
    digit?_eq_some_iff, writes_two_iff]
  constructor
  · rintro ⟨h, hh, l, hl, rest, hrest, rfl⟩
    have hlt : h * 16 + l < 256 := by
      have := hh.1
      have := hl.1
      omega
    have hbyte : (h * 16 + l).toUInt8.toNat = h * 16 + l := UInt8.toNat_ofNat_of_lt hlt
    exact ⟨_, rest, rfl, ⟨h, l, hh, hl, hbyte.symm⟩, hrest⟩
  · rintro ⟨x, rest, rfl, ⟨h, l, hh, hl, hx⟩, hrest⟩
    refine ⟨h, hh, l, hl, rest, hrest, ?_⟩
    rw [hx]
    exact congrArg (· :: rest) UInt8.ofNat_toNat

theorem isSome_decodeChars?_iff : (decodeChars? cs).isSome ↔ Even cs.length ∧ ∀ c ∈ cs, c ∈ digits := by
  induction cs using decodeChars?.induct with
  | case1 => simp [decodeChars?]
  | case2 c => simp [decodeChars?]
  | case3 a b cs ih =>
    have hpair : (decodeChars? (a :: b :: cs)).isSome ↔
        (digit? a).isSome ∧ (digit? b).isSome ∧ (decodeChars? cs).isSome := by
      rw [decodeChars?]
      cases digit? a <;> cases digit? b <;> cases decodeChars? cs <;> simp
    rw [hpair, ih, isSome_digit?_iff, isSome_digit?_iff]
    simp only [List.length_cons, List.forall_mem_cons, Nat.even_add_one, not_not]
    tauto

theorem inPairs_cons_iff {x : UInt8} :
    InPairs (a :: b :: cs) (x :: bytes) ↔ Writes 16 [a, b] x.toNat ∧ InPairs cs bytes := by
  constructor
  · rintro ⟨hlength, hpair⟩
    simp only [List.length_cons] at hlength
    refine ⟨hpair 0 (Nat.zero_lt_succ _), by omega, fun k hk => ?_⟩
    exact hpair (k + 1) (Nat.succ_lt_succ hk)
  · rintro ⟨hfirst, hlength, hpair⟩
    refine ⟨by simp only [List.length_cons]; omega, fun k hk => ?_⟩
    rcases k with _ | k
    · exact hfirst
    · exact hpair k (Nat.lt_of_succ_lt_succ hk)

theorem decodeChars?_eq_some_iff_inPairs : decodeChars? cs = some bytes ↔ InPairs cs bytes := by
  induction cs using decodeChars?.induct generalizing bytes with
  | case1 =>
    rcases bytes with _ | ⟨x, rest⟩
    · exact iff_of_true rfl ⟨rfl, by simp⟩
    · exact iff_of_false (by simp [decodeChars?]) fun h => by simpa using h.length
  | case2 c =>
    refine iff_of_false (by simp [decodeChars?]) fun h => ?_
    have := h.length
    simp only [List.length_singleton] at this
    omega
  | case3 a b cs ih =>
    rw [decodeChars?_pair_iff]
    constructor
    · rintro ⟨x, rest, rfl, hx, hrest⟩
      exact inPairs_cons_iff.2 ⟨hx, ih.1 hrest⟩
    · intro h
      rcases bytes with _ | ⟨x, rest⟩
      · simpa using h.length
      · obtain ⟨hx, hrest⟩ := inPairs_cons_iff.1 h
        exact ⟨x, rest, rfl, hx, ih.2 hrest⟩

theorem decodeChars?_eq_some_iff_encodeChars : decodeChars? cs = some bytes ↔ encodeChars bytes = cs.map Char.toLower := by
  induction cs using decodeChars?.induct generalizing bytes with
  | case1 => cases bytes <;> simp [decodeChars?, encodeChars]
  | case2 c => cases bytes <;> simp [decodeChars?, encodeChars]
  | case3 a b cs ih =>
    rw [decodeChars?_pair_iff]
    rcases bytes with _ | ⟨x, rest⟩
    · simp [encodeChars]
    · simp [encodeChars, writes_byte_iff, ih, and_assoc]

/-! White space and case -/

theorem plain_cons_of_blank (h : Text.isBlank c) : plain (c :: cs) = plain cs := by
  rw [plain, solid, List.filter_cons_of_neg (by simp [h]), plain, solid]

theorem plain_cons_of_not_blank (h : ¬ Text.isBlank c) : plain (c :: cs) = c.toLower :: plain cs := by
  rw [plain, solid, List.filter_cons_of_pos (by simp [h]), List.map_cons, plain, solid]

theorem Variant.plain_eq (h : Variant cs cs') : plain cs = plain cs' := by
  induction h with
  | nil => rfl
  | left blank _ ih => rw [plain_cons_of_blank blank, ih]
  | right blank _ ih => rw [plain_cons_of_blank blank, ih]
  | @letter c d cs cs' same _ ih =>
    by_cases hc : Text.isBlank c
    · have hd : Text.isBlank d := by rwa [← isBlank_congr same]
      rw [plain_cons_of_blank hc, plain_cons_of_blank hd, ih]
    · have hd : ¬ Text.isBlank d := by rwa [← isBlank_congr same]
      rw [plain_cons_of_not_blank hc, plain_cons_of_not_blank hd, same, ih]

theorem variant_of_plain_eq (h : plain cs = plain cs') : Variant cs cs' := by
  -- white space is passed over on the left first, so the right side is searched for the first character left of it
  induction cs generalizing cs' with
  | nil =>
    induction cs' with
    | nil => exact .nil
    | cons d cs' ih' =>
      by_cases hd : Text.isBlank d
      · exact .right hd (ih' (h.trans (plain_cons_of_blank hd)))
      · cases h.trans (plain_cons_of_not_blank hd)
  | cons c cs ih =>
    by_cases hc : Text.isBlank c
    · exact .left hc (ih ((plain_cons_of_blank hc).symm.trans h))
    · induction cs' with
      | nil => cases (plain_cons_of_not_blank hc).symm.trans h
      | cons d cs' ih' =>
        by_cases hd : Text.isBlank d
        · exact .right hd (ih' (h.trans (plain_cons_of_blank hd)))
        · rw [plain_cons_of_not_blank hc, plain_cons_of_not_blank hd, List.cons.injEq] at h
          exact .letter h.1 (ih h.2)

/-! The codec of a text -/

variable {t t' : String}

theorem decode?_eq_some_iff : decode? t = some bytes ↔ encode bytes = String.ofList (plain t.toList) := by
  rw [encode, String.ofList_inj]
  exact decodeChars?_eq_some_iff_encodeChars

/-- Two texts are read alike exactly if one is a variant of the other, or neither can be read. -/
theorem decode?_eq_iff :
    decode? t = decode? t' ↔ Variant t.toList t'.toList ∨ decode? t = none ∧ decode? t' = none := by
  constructor
  · intro h
    rcases hbytes : decode? t with _ | bytes
    · exact .inr ⟨rfl, h.symm.trans hbytes⟩
    · have hleft := decode?_eq_some_iff.1 hbytes
      have hright := decode?_eq_some_iff.1 (h.symm.trans hbytes)
      exact .inl (variant_of_plain_eq (String.ofList_inj.1 (hleft.symm.trans hright)))
  · rintro (h | ⟨h, h'⟩)
    · ext bytes
      rw [decode?_eq_some_iff, decode?_eq_some_iff, h.plain_eq]
    · rw [h, h']

end BinAtlas.Hex

namespace BinAtlas.Region

open Hex

variable {δ : Type} [Document δ] {d : δ} {r : Region}

theorem bytes?_eq_some_iff {bytes : Array UInt8} :
    bytes? d = some bytes ↔ ∃ t, Document.text? d = some t ∧ Hex.decode? t = some bytes.toList := by
  simp only [bytes?, Option.bind_eq_bind, Option.bind_eq_some_iff, Option.pure_def, Option.some.injEq]
  constructor
  · rintro ⟨t, ht, l, hl, rfl⟩
    exact ⟨t, ht, hl⟩
  · rintro ⟨t, ht, hl⟩
    exact ⟨t, ht, _, hl, Array.toArray_toList⟩

/-- The field of a region that holds its bytes. -/
theorem encode_eq_iff {t : String} :
    r.encode = .object [("start", .word r.start), ("bytes", .text t)] ↔ Hex.encode r.bytes.toList = t := by
  simp [encode]

/-- A text is read as bytes exactly where, without its white space, it is pairs of digits that write them, and this is so
for each text of an even number of digits. Two texts that can be read give the same bytes exactly if they differ in
white space and case alone. What is written is read back, and what is read is written as the plain form of its text:
so the bytes of a region are read, from any format, exactly where they are written as the plain form of the text. -/
theorem bytes_exact :
    (∀ t bytes, Hex.decode? t = some bytes ↔ InPairs (solid t.toList) bytes) ∧
    (∀ t, (Hex.decode? t).isSome ↔ Even (solid t.toList).length ∧ ∀ c ∈ solid t.toList, c ∈ digits) ∧
    (∀ t t', Hex.decode? t = Hex.decode? t' ↔
      Variant t.toList t'.toList ∨ Hex.decode? t = none ∧ Hex.decode? t' = none) ∧
    (∀ bytes, Hex.decode? (Hex.encode bytes) = some bytes) ∧
    (∀ t bytes, Hex.decode? t = some bytes ↔ Hex.encode bytes = String.ofList (plain t.toList)) ∧
    ∀ {δ : Type} [Document δ] (d : δ) (r : Region), bytes? d = some r.bytes ↔ ∃ t, Document.text? d = some t ∧
      r.encode = .object [("start", .word r.start), ("bytes", .text (String.ofList (plain t.toList)))] := by
  refine ⟨fun t bytes => decodeChars?_eq_some_iff_inPairs, fun t => isSome_decodeChars?_iff,
    fun t t' => Hex.decode?_eq_iff, Hex.decode?_encode, fun t bytes => Hex.decode?_eq_some_iff, fun d r => ?_⟩
  simp only [bytes?_eq_some_iff, Hex.decode?_eq_some_iff, encode_eq_iff]

/-- White space may part the two digits of a byte; a digit of another script is none. -/
example : Hex.decode? "4\u30008 fF" = some [0x48, 0xFF] ∧ Hex.decode? "4８" = none := by decide

end BinAtlas.Region
