import BinAtlas.Host.Stored
import BinAtlas.Proofs.Image
import Mathlib.Tactic.SplitIfs

/-! Arithmetic that takes nothing for granted. Sums and differences of words, indices and slices are faults
where they leave their range; sums that are tested first, as in `Address.plus?`, stay as they are. The
computations on an image are repeated in this arithmetic, with the loops of a host that counts in words:
they have no faults and the results are those of the image. -/

namespace BinAtlas

open Address

inductive Fault where
  | sum
  | difference
  | index
  /-- A loop took more turns than it was allowed. -/
  | turns
  deriving DecidableEq

/-- A computation that may end in a fault. -/
abbrev Checked (α : Type) := Except Fault α

namespace Checked

def add (a b : UInt64) : Checked UInt64 := if a.toNat + b.toNat < UInt64.size then .ok (a + b) else .error .sum

def sub (a b : UInt64) : Checked UInt64 := if b ≤ a then .ok (a - b) else .error .difference

def element (bytes : Array UInt8) (i : UInt64) : Checked UInt8 :=
  match bytes[i.toNat]? with
  | some b => .ok b
  | none => .error .index

def assign (bytes : Array UInt8) (i : UInt64) (b : UInt8) : Checked (Array UInt8) :=
  if h : i.toNat < bytes.size then .ok (bytes.set i.toNat b h) else .error .index

/-- Whether an address is one of `size` from a start on. The difference is taken after the comparison. -/
def within (start a : Address) (size : Nat) : Checked Bool :=
  if start ≤ a then do return decide ((← sub a start).toNat < size) else return false

def byte? (m : Image) (a : Address) : Checked (Option UInt8) := do
  match ← m.findM? fun r => within r.start a r.bytes.size with
  | none => return none
  | some r => return some (← element r.bytes (← sub a r.start))

def at? (m : Image) (a : Address) (i : Nat) : Checked (Option UInt8) :=
  match a.plus? i with
  | none => return none
  | some p => byte? m p

def loadedFrom (m : Image) (a : Address) (i : Nat) : Nat → Checked Bool
  | 0 => return true
  | n + 1 => do if (← at? m a i).isSome then loadedFrom m a (i + 1) n else return false

def loaded (m : Image) (a : Address) (n : Nat) : Checked Bool := loadedFrom m a 0 n

def read (m : Image) (a : Address) (n : Nat) (fill : UInt8) : Checked (List UInt8) :=
  (List.range n).mapM fun i => do return (← at? m a i).getD fill

/-- The number in `n` bytes, with zeros for those that are not loaded. -/
def readNumber (m : Image) (bigEndian : Bool) (a : Address) (n : Nat) : Checked Nat := do
  return number bigEndian (← read m a n 0)

def set : Image → Address → UInt8 → Checked Image
  | [], _, _ => return []
  | r :: rs, a, b => do
    if ← within r.start a r.bytes.size then
      let bytes ← assign r.bytes (← sub a r.start) b
      return { r with bytes } :: rs
    else return r :: (← set rs a b)

def storeFrom (m : Image) (a : Address) (i : Nat) : List UInt8 → Checked Image
  | [] => return m
  | b :: bs =>
    match a.plus? i with
    | some p => do storeFrom (← set m p b) a (i + 1) bs
    | none => return m

def patch (m : Image) (a : Address) (data : List UInt8) : Checked (Bool × Image) := do
  if ← loaded m a data.length then return (true, ← storeFrom m a 0 data) else return (false, m)

/-- Goes on from `length` bytes as long as one more unit is within the limit. -/
def lengthFrom (m : Image) (bigEndian : Bool) (a : Address) (unit : UInt64) : Nat → UInt64 → Checked UInt64
  | 0, _ => .error .turns
  | turns + 1, length => do
    if Image.longestString < (← add length unit).toNat then return length
    match a.plus? length.toNat with
    | none => return length
    | some p =>
      if ← loaded m p unit.toNat then
        let value ← readNumber m bigEndian p unit.toNat
        let length ← add length unit
        if value = 0 then return length else lengthFrom m bigEndian a unit turns length
      else return length

def stringLength (m : Image) (bigEndian : Bool) (a : Address) (kind : StringKind) : Checked UInt64 :=
  lengthFrom m bigEndian a kind.size.toUInt64 (Image.longestString + 1) 0

/-- Collects units from an offset as long as one more is within `length` bytes. -/
def unitsFrom (m : Image) (bigEndian : Bool) (a : Address) (unit length : UInt64) :
    Nat → UInt64 → Checked (List Nat)
  | 0, _ => .error .turns
  | turns + 1, offset => do
    if (← sub length offset) < unit then return []
    match a.plus? offset.toNat with
    | none => return []
    | some p =>
      if ← loaded m p unit.toNat then
        let value ← readNumber m bigEndian p unit.toNat
        if value = 0 then return []
        else return value :: (← unitsFrom m bigEndian a unit length turns (← add offset unit))
      else return []

def stringContents (m : Image) (bigEndian : Bool) (a : Address) (length : UInt64) (kind : StringKind) :
    Checked (Option (List UInt8)) := do
  let unit := kind.size.toUInt64
  if length < unit then return none
  if ← loaded m a kind.size then
    return some (Image.spell kind (← unitsFrom m bigEndian a unit length (length.toNat + 1) 0))
  else return none

theorem add_eq_ok {a b : UInt64} (h : a.toNat + b.toNat < UInt64.size) : add a b = .ok (a + b) := if_pos h

theorem sub_eq_ok {a b : UInt64} (h : b ≤ a) : sub a b = .ok (a - b) := if_pos h

/-- What comes after a step without a fault. -/
theorem ok_bind {α β : Type} (x : α) (f : α → Checked β) : (Except.ok x >>= f) = f x := rfl

theorem pure_eq_ok {α : Type} (x : α) : (pure x : Checked α) = .ok x := rfl

theorem findM?_eq_ok {α : Type} {test : α → Checked Bool} {p : α → Bool} (h : ∀ x, test x = .ok (p x)) (l : List α) :
    l.findM? test = .ok (l.find? p) := by
  rw [funext h]
  exact List.findM?_pure p l

/-- A guarded difference is no fault. -/
theorem within_eq_ok (start a : Address) (size : Nat) :
    within start a size = .ok (start ≤ a && (a - start).toNat < size) := by
  unfold within
  by_cases h : start ≤ a
  · rw [if_pos h, sub_eq_ok h, ok_bind, decide_eq_true h, Bool.true_and, pure_eq_ok]
  · rw [if_neg h, decide_eq_false h, Bool.false_and, pure_eq_ok]

section Image

variable (m : Image) (a : Address)

theorem within_region (r : Region) : within r.start a r.bytes.size = .ok (r.covers a) := within_eq_ok _ _ _

theorem byte?_eq_find : m.byte? a = (m.find? (·.covers a)).bind (·.byte? a) := by
  induction m with
  | nil => rfl
  | cons r m ih =>
    rw [Image.byte?_cons, List.find?_cons]
    cases hcovers : r.covers a with
    | true =>
      obtain ⟨b, hb⟩ := Region.exists_byte? hcovers
      rw [hb, Option.some_or, Option.bind_some, hb]
    | false => rw [Region.byte?_eq_none (by simp [hcovers]), ih, Option.none_or]

/-- The region that is found covers the address, so that the place in it is one of its bytes. -/
theorem byte?_eq_ok : byte? m a = .ok (m.byte? a) := by
  unfold byte?
  rw [findM?_eq_ok (within_region a), byte?_eq_find]
  cases hfind : m.find? (·.covers a) with
  | none => rfl
  | some r =>
    have hcovers : r.covers a = true := List.find?_some (p := fun r : Region => r.covers a) hfind
    have hle : r.start ≤ a := UInt64.le_iff_toNat_le.2 (Region.covers_iff.1 hcovers).1
    obtain ⟨b, hb⟩ := Region.exists_byte? hcovers
    have hplace : r.bytes[(a - r.start).toNat]? = some b := by rwa [Region.byte?, if_pos hle] at hb
    have helement : element r.bytes (a - r.start) = .ok b := by rw [element, hplace]
    simp only [ok_bind, pure_eq_ok, sub_eq_ok hle, helement, Option.bind_some, hb]

theorem at?_eq_ok (i : Nat) : at? m a i = .ok (m.at? a i) := by
  unfold at? Image.at?
  cases a.plus? i with
  | none => rfl
  | some p => exact byte?_eq_ok m p

theorem loadedFrom_eq_ok (n i : Nat) : loadedFrom m a i n = .ok (m.loadedFrom a i n) := by
  induction n generalizing i with
  | zero => rfl
  | succ n ih =>
    rw [loadedFrom, at?_eq_ok, ok_bind, Image.loadedFrom]
    cases (m.at? a i).isSome with
    | true => exact ih (i + 1)
    | false => rfl

theorem loaded_eq_ok (n : Nat) : loaded m a n = .ok (m.loaded a n) := loadedFrom_eq_ok m a n 0

theorem read_eq_ok (n : Nat) (fill : UInt8) : read m a n fill = .ok (m.read a n fill) := by
  simp only [read, at?_eq_ok, ok_bind]
  exact List.mapM_pure

theorem readNumber_eq_ok (bigEndian : Bool) (n : Nat) :
    readNumber m bigEndian a n = .ok (number bigEndian (m.read a n 0)) := by
  rw [readNumber, read_eq_ok, ok_bind, pure_eq_ok]

theorem set_eq_ok (b : UInt8) : set m a b = .ok (m.set a b) := by
  induction m with
  | nil => rfl
  | cons r m ih =>
    rw [set, within_region, ok_bind, Image.set]
    by_cases hcovers : r.covers a
    · obtain ⟨hle, hlt⟩ := Region.covers_iff.1 hcovers
      have hle : r.start ≤ a := UInt64.le_iff_toNat_le.2 hle
      have hplace : (a - r.start).toNat < r.bytes.size := by
        rw [UInt64.toNat_sub_of_le a r.start hle]
        omega
      have hassign : assign r.bytes (a - r.start) b = .ok (r.bytes.setIfInBounds (a - r.start).toNat b) := by
        rw [assign, dif_pos hplace, Array.setIfInBounds_def, dif_pos hplace]
      rw [if_pos hcovers, if_pos hcovers, sub_eq_ok hle, ok_bind, hassign, ok_bind, pure_eq_ok, Region.set]
    · rw [if_neg hcovers, if_neg hcovers, ih, ok_bind, pure_eq_ok]

theorem storeFrom_eq_ok (bs : List UInt8) (i : Nat) : storeFrom m a i bs = .ok (m.storeFrom a i bs) := by
  induction bs generalizing m i with
  | nil => rfl
  | cons b bs ih =>
    unfold storeFrom Image.storeFrom
    cases a.plus? i with
    | none => rfl
    | some p =>
      dsimp only
      rw [set_eq_ok, ok_bind]
      exact ih (m.set p b) (i + 1)

theorem patch_eq_ok (data : List UInt8) : patch m a data = .ok (m.patch a data) := by
  rw [patch, loaded_eq_ok, ok_bind, Image.patch]
  split_ifs
  · rw [storeFrom_eq_ok, ok_bind, pure_eq_ok]
  · rw [pure_eq_ok]

end Image

section Scans

variable (m : Image) (bigEndian : Bool) (a : Address) (unit : UInt64)

theorem toNat_size (kind : StringKind) : kind.size.toUInt64.toNat = kind.size := by
  cases kind <;> rfl

theorem unit?_at {i : Nat} {p : Address} (hp : a.plus? i = some p) (size : Nat) :
    m.unit? bigEndian a size i = if m.loaded p size then some (number bigEndian (m.read p size 0)) else none := by
  rw [Image.unit?, hp, Option.bind_some]

theorem unit?_past {i : Nat} (hp : a.plus? i = none) (size : Nat) : m.unit? bigEndian a size i = none := by
  rw [Image.unit?, hp, Option.bind_none]

/-- The length stays within the limit, from where one more unit does not reach the last word. -/
theorem lengthFrom_eq_ok (hunit : 0 < unit.toNat) (hsmall : unit.toNat ≤ Image.longestString) (turns : Nat)
    (length : UInt64) (hlength : length.toNat ≤ Image.longestString)
    (hturns : Image.longestString < length.toNat + turns) :
    ∃ total, lengthFrom m bigEndian a unit turns length = .ok total ∧
      total.toNat =
        m.measure bigEndian a unit.toNat length.toNat ((Image.longestString - length.toNat) / unit.toNat) := by
  have hlimit : Image.longestString + Image.longestString < UInt64.size := by decide
  induction turns generalizing length with
  | zero => omega
  | succ turns ih =>
    have hfits : length.toNat + unit.toNat < UInt64.size := by omega
    have hsum : (length + unit).toNat = length.toNat + unit.toNat := toNat_add_of_lt hfits
    unfold lengthFrom
    simp only [add_eq_ok hfits, ok_bind]
    by_cases hmore : Image.longestString < (length + unit).toNat
    · have hlast : (Image.longestString - length.toNat) / unit.toNat = 0 := Nat.div_eq_of_lt (by omega)
      rw [if_pos hmore, hlast]
      exact ⟨length, rfl, rfl⟩
    · have hnext : (Image.longestString - length.toNat) / unit.toNat =
          (Image.longestString - (length + unit).toNat) / unit.toNat + 1 := by
        rw [Nat.div_eq_sub_div hunit (by omega), hsum, Nat.sub_sub]
      rw [if_neg hmore, hnext, Image.measure]
      cases hp : a.plus? length.toNat with
      | none =>
        rw [unit?_past m bigEndian a hp]
        exact ⟨length, rfl, rfl⟩
      | some p =>
        simp only [unit?_at m bigEndian a hp, loaded_eq_ok, readNumber_eq_ok, ok_bind]
        by_cases hloaded : m.loaded p unit.toNat
        · simp only [if_pos hloaded]
          split_ifs with hzero
          · exact ⟨length + unit, rfl, hsum⟩
          · rw [← hsum]
            exact ih (length + unit) (by omega) (by omega)
        · simp only [if_neg hloaded]
          exact ⟨length, rfl, rfl⟩

theorem stringLength_eq_ok (kind : StringKind) :
    ∃ length, stringLength m bigEndian a kind = .ok length ∧ length.toNat = m.stringLength bigEndian a kind := by
  have hunit : 0 < kind.size ∧ kind.size ≤ Image.longestString := by cases kind <;> decide
  obtain ⟨total, htotal, hmeasure⟩ := lengthFrom_eq_ok m bigEndian a kind.size.toUInt64
    (by rw [toNat_size]; exact hunit.1) (by rw [toNat_size]; exact hunit.2) (Image.longestString + 1) 0 (by decide)
    (by decide)
  rw [toNat_size] at hmeasure
  exact ⟨total, htotal, hmeasure⟩

/-- The offset stays within the length, so that it can be taken away and a whole unit be added. -/
theorem unitsFrom_eq_ok (hunit : 0 < unit.toNat) (length : UInt64) (turns : Nat) (offset : UInt64)
    (hoffset : offset.toNat ≤ length.toNat) (hturns : length.toNat < offset.toNat + turns) :
    unitsFrom m bigEndian a unit length turns offset =
      .ok (m.units bigEndian a unit.toNat offset.toNat ((length.toNat - offset.toNat) / unit.toNat)) := by
  have hlength := toNat_lt_size length
  induction turns generalizing offset with
  | zero => omega
  | succ turns ih =>
    have hle : offset ≤ length := UInt64.le_iff_toNat_le.2 hoffset
    have hrest : (length - offset).toNat = length.toNat - offset.toNat := UInt64.toNat_sub_of_le _ _ hle
    unfold unitsFrom
    simp only [sub_eq_ok hle, ok_bind]
    by_cases hmore : length - offset < unit
    · have hlast : (length.toNat - offset.toNat) / unit.toNat = 0 :=
        Nat.div_eq_of_lt (hrest ▸ UInt64.lt_iff_toNat_lt.1 hmore)
      rw [if_pos hmore, hlast]
      rfl
    · have hroom : unit.toNat ≤ length.toNat - offset.toNat := by
        rw [← hrest]
        exact UInt64.le_iff_toNat_le.1 (UInt64.not_lt.1 hmore)
      have hfits : offset.toNat + unit.toNat < UInt64.size := by omega
      have hsum : (offset + unit).toNat = offset.toNat + unit.toNat := toNat_add_of_lt hfits
      have hnext : (length.toNat - offset.toNat) / unit.toNat =
          (length.toNat - (offset + unit).toNat) / unit.toNat + 1 := by
        rw [Nat.div_eq_sub_div hunit hroom, hsum, Nat.sub_sub]
      rw [if_neg hmore, hnext, Image.units]
      cases hp : a.plus? offset.toNat with
      | none =>
        rw [unit?_past m bigEndian a hp]
        rfl
      | some p =>
        simp only [unit?_at m bigEndian a hp, loaded_eq_ok, readNumber_eq_ok, add_eq_ok hfits, ok_bind]
        by_cases hloaded : m.loaded p unit.toNat
        · simp only [if_pos hloaded]
          split_ifs with hzero
          · rfl
          · rw [ih (offset + unit) (by omega) (by omega), hsum, ok_bind, pure_eq_ok]
        · simp only [if_neg hloaded]
          rfl

theorem stringContents_eq_ok (length : UInt64) (kind : StringKind) :
    stringContents m bigEndian a length kind = .ok (m.stringContents bigEndian a length.toNat kind) := by
  have hunit : 0 < kind.size := by cases kind <;> decide
  have hunits := unitsFrom_eq_ok m bigEndian a kind.size.toUInt64 (by rw [toNat_size]; exact hunit) length
    (length.toNat + 1) 0 (Nat.zero_le _) (by simp)
  rw [toNat_size] at hunits
  have hshort : length < kind.size.toUInt64 ↔ length.toNat < kind.size := by
    rw [UInt64.lt_iff_toNat_lt, toNat_size]
  simp only [stringContents, Image.stringContents, hshort, loaded_eq_ok, ok_bind, hunits]
  by_cases hn : length.toNat < kind.size <;> cases m.loaded a kind.size <;> simp [hn, pure_eq_ok]

end Scans

end Checked
end BinAtlas
