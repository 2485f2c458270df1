import BinAtlas.Proofs.Scan
import BinAtlas.Proofs.Session.Strings

/-! What is read of the strings in a session's memory, for every layout of it: the units of one stretch,
as many as there is room for. A read without a length is one of the longest length that a host measures. -/

namespace BinAtlas.Session

/-- The width of units that is asked for, or the one that the host infers at an address. -/
def kindAt (s : Session Image) (a : Address) (bits : Option UInt32) : Option StringKind :=
  bits.elim (some (s.view.stringKind a)) StringKind.ofBits?

/-- The strings at an address in units of one width, where `us` are the units in a row that are loaded and not
zero: what the host measures, and what is read with a length and without one. -/
structure ReadsStretch (bigEndian : Bool) (s : Session Image) (a : Address) (kind : StringKind) (us : List Nat) :
    Prop where
  stretch : ∀ vs, s.memory.Stretch bigEndian kind.size a.toNat vs ↔ vs = us
  measured : s.view.stringLength a kind =
    min 4096 (if s.memory.unitAt bigEndian kind.size (a.toNat + kind.size * us.length) = some 0 then
      kind.size * us.length + kind.size else kind.size * us.length)
  unbounded : ∀ bits, s.kindAt a bits = some kind →
    (perform (.getString a none bits) s).1 = (perform (.getString a (some 4096) bits) s).1
  bounded : ∀ bits, s.kindAt a bits = some kind → ∀ length : Nat,
    (perform (.getString a (some length) bits) s).1 =
      .bytes (if length < kind.size ∨ ¬ (∀ i < kind.size, (s.memory.contentAt (a.toNat + i)).isSome) then
          .error (.notFound (.string a))
        else .ok (Image.spell kind (us.take (min us.length (length / kind.size)))))

section Host

variable {t : Snapshot} {s : Session Image} (hhost : s.host = t.host) {a : Address} {kind : StringKind} {us : List Nat}
  (hus : s.memory.Stretch t.bigEndian kind.size a.toNat us)

include hhost hus

/-- A read with a length, told by the stretch at the address. -/
theorem getString_some_eq {bits : Option UInt32} (hkind : s.kindAt a bits = some kind) (length : Nat) :
    (perform (.getString a (some length) bits) s).1 =
      .bytes (if length < kind.size ∨ ¬ (∀ i < kind.size, (s.memory.contentAt (a.toNat + i)).isSome) then
          .error (.notFound (.string a))
        else .ok (Image.spell kind (us.take (min us.length (length / kind.size))))) := by
  have hshort : us.take (min us.length (length / kind.size)) = us.take (length / kind.size) := by
    rw [List.take_eq_take_iff]
    omega
  rw [getString_eq hhost a (some length) bits hkind, Option.getD_some, Image.stringContents_eq hus, hshort]
  simp only [Image.unitAt_eq_none_iff]
  split_ifs <;> rfl

/-- Without a length the host measures one, and what it leaves out is beyond the longest string. -/
theorem getString_none_eq {bits : Option UInt32} (hkind : s.kindAt a bits = some kind) :
    (perform (.getString a none bits) s).1 = (perform (.getString a (some Image.longestString) bits) s).1 := by
  rw [getString_eq hhost a none bits hkind, getString_eq hhost a (some Image.longestString) bits hkind,
    Option.getD_none, Option.getD_some, Image.stringContents_stringLength hus]

theorem readsStretch_of_host : ReadsStretch t.bigEndian s a kind us where
  stretch vs := by
    constructor
    · intro hvs
      exact hvs.unique hus
    · rintro rfl
      exact hus
  measured := by
    rw [view_eq hhost]
    exact Image.stringLength_eq_min hus
  unbounded bits hkind := getString_none_eq hhost hus hkind
  bounded bits hkind length := getString_some_eq hhost hus hkind length

end Host

/-- Seven bytes up to the last address but one, and a width on record. -/
def topmostString : Stored :=
  ⟨{ items := [⟨0xfffffffffffffff8, 7, false, none, none, some 16⟩] },
    [⟨0xfffffffffffffff8, #[0, 0, 0, 0, 0, 0, 0]⟩]⟩

theorem load_topmostString :
    Snapshot.load { topmostString.tables with memory := topmostString.image } = .ok topmostString := by
  rw [Snapshot.load_eq_ok_iff, ← Snapshot.flaw?_eq_none_iff]
  simp only [topmostString, List.mergeSort_nil, List.mergeSort_singleton, and_true]
  rfl

end BinAtlas.Session
