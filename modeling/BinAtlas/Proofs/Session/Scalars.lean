import BinAtlas.Proofs.Literal
import BinAtlas.Proofs.Session.ByteStore
import BinAtlas.Proofs.Word

/-! Numbers in a session's memory. A number is read where its bytes are, and it is the one that they write in
the byte order of the snapshot; the cut to its width takes nothing away. So a number that was written comes
back. -/

namespace BinAtlas

/-- A number that is read at once, by its width. -/
inductive Scalar where
  | byte
  | word
  | dword
  | qword
  deriving DecidableEq

namespace Scalar

/-- The width in bytes. -/
def size : Scalar → Nat
  | .byte => 1
  | .word => 2
  | .dword => 4
  | .qword => 8

def read : Scalar → Address → Operation
  | .byte => .getByte
  | .word => .getWord
  | .dword => .getDword
  | .qword => .getQword

/-- What is said to be missing where it cannot be read. -/
def missing : Scalar → Address → Missing
  | .byte => .byte
  | .word => .word
  | .dword => .dword
  | .qword => .qword

end Scalar

theorem Image.number_read_lt (m : Image) (bigEndian : Bool) (a : Address) (n : Nat) :
    number bigEndian (m.read a n 0) < 256 ^ n := by
  have h := positional_lt bigEndian (m.read a n 0)
  rwa [← number_eq_positional, length_read] at h

theorem Image.toNat_byte (m : Image) (bigEndian : Bool) (a : Address) :
    ((m.byte? a).getD 0).toNat = number bigEndian (m.read a 1 0) := by
  have hread : m.read a 1 0 = [(m.byte? a).getD 0] := by
    rw [read_eq, List.range_one, List.map_singleton, Nat.add_zero, contentAt_toNat]
  rw [hread]
  cases bigEndian <;> simp [number]

namespace Session

/-- The numbers of a session with a byte order. -/
structure ReadsScalars (bigEndian : Bool) (s : Session Image) : Prop where
  found_iff : ∀ (k : Scalar) (a : Address), (∃ x, (perform (k.read a) s).1 = .word (.ok x)) ↔
    ∃ bytes, (perform (.getBytes a k.size none) s).1 = .bytes (.ok bytes)
  missing : ∀ (k : Scalar) (a : Address), (¬ ∃ x, (perform (k.read a) s).1 = .word (.ok x)) →
    (perform (k.read a) s).1 = .word (.error (.notFound (k.missing a)))
  value : ∀ (k : Scalar) (a : Address) x bytes, (perform (k.read a) s).1 = .word (.ok x) →
    (perform (.getBytes a k.size none) s).1 = .bytes (.ok bytes) →
    bytes.length = k.size ∧ x.toNat = positional bigEndian bytes
  written : ∀ (k : Scalar) (a : Address) (n : Nat), n < 2 ^ (8 * k.size) →
    let after : Answer × Session Image := perform (.writeBytes a (unitBytes bigEndian k.size n)) s
    after.1 = .done (.ok ()) → ∃ x, (perform (k.read a) after.2).1 = .word (.ok x) ∧ x.toNat = n

section Host

variable {t : Snapshot} {s : Session Image} (hhost : s.host = t.host)

theorem map_ite_ok {α β : Type} {c : Prop} [Decidable c] (f : α → β) (x : α) (e : Error) :
    (if c then .ok x else .error e : Except Error α).map f = if c then .ok (f x) else .error e := by
  split_ifs <;> rfl

include hhost

/-- Whether the bytes are loaded is asked first. The number fits in the width that it is cut to. -/
theorem perform_read (k : Scalar) (a : Address) : ∃ x : UInt64,
    x.toNat = number t.bigEndian (s.memory.read a k.size 0) ∧
    (perform (k.read a) s).1 =
      .word (if s.memory.loaded a k.size then .ok x else .error (.notFound (k.missing a))) := by
  have hlt := s.memory.number_read_lt t.bigEndian a k.size
  have hword := s.memory.toNat_readWord t.bigEndian a (show k.size ≤ 8 by cases k <;> decide)
  cases k with
  | byte =>
    refine ⟨((s.memory.byte? a).getD 0).toUInt64, ?_, ?_⟩
    · rw [UInt8.toNat_toUInt64]
      exact s.memory.toNat_byte t.bigEndian a
    · change Answer.word ((s.view.getByte a).map (·.toUInt64)) = _
      rw [view_eq hhost]
      exact congrArg Answer.word (map_ite_ok _ _ _)
  | word =>
    refine ⟨(s.memory.readWord t.bigEndian a 2).toUInt16.toUInt64, ?_, ?_⟩
    · rw [UInt16.toNat_toUInt64, UInt64.toNat_toUInt16]
      exact (congrArg (· % 2 ^ 16) hword).trans (Nat.mod_eq_of_lt hlt)
    · change Answer.word ((s.view.getWord a).map (·.toUInt64)) = _
      rw [view_eq hhost]
      exact congrArg Answer.word (map_ite_ok _ _ _)
  | dword =>
    refine ⟨(s.memory.readWord t.bigEndian a 4).toUInt32.toUInt64, ?_, ?_⟩
    · rw [UInt32.toNat_toUInt64, UInt64.toNat_toUInt32]
      exact (congrArg (· % 2 ^ 32) hword).trans (Nat.mod_eq_of_lt hlt)
    · change Answer.word ((s.view.getDword a).map (·.toUInt64)) = _
      rw [view_eq hhost]
      exact congrArg Answer.word (map_ite_ok _ _ _)
  | qword =>
    refine ⟨s.memory.readWord t.bigEndian a 8, hword, ?_⟩
    change Answer.word (s.view.getQword a) = _
    rw [view_eq hhost]
    rfl

/-- Without a filler the bytes are read where all of them are loaded. -/
theorem perform_getBytes (a : Address) (n : Nat) :
    (perform (.getBytes a n none) s).1 =
      .bytes (if s.memory.loaded a n then .ok (s.memory.read a n 0) else .error (.notFound (.bytes n a))) := by
  change Answer.bytes (s.view.getBytes a n none) = _
  rw [view_eq hhost]
  rfl

/-- A number is there for one that is written in its bytes. -/
theorem read_of_holds {k : Scalar} {a : Address} {n : Nat} (hn : n < 2 ^ (8 * k.size))
    (h : s.memory.Holds a.toNat (unitBytes t.bigEndian k.size n)) :
    ∃ x, (perform (k.read a) s).1 = .word (.ok x) ∧ x.toNat = n := by
  obtain ⟨x, hx, hread⟩ := perform_read hhost k a
  have hlength := length_unitBytes t.bigEndian k.size n
  have hloaded := Image.loaded_of_holds h
  have hbytes := Image.read_of_holds h 0
  rw [hlength] at hloaded hbytes
  rw [hbytes, number_unitBytes t.bigEndian (by rwa [Nat.pow_mul] at hn)] at hx
  rw [if_pos hloaded] at hread
  exact ⟨x, hread, hx⟩

theorem readsScalars_of_host : ReadsScalars t.bigEndian s where
  found_iff k a := by
    obtain ⟨x, -, hread⟩ := perform_read hhost k a
    rw [hread, perform_getBytes hhost]
    by_cases hloaded : s.memory.loaded a k.size
    · simp [hloaded]
    · simp [hloaded]
  missing k a hnone := by
    obtain ⟨x, -, hread⟩ := perform_read hhost k a
    by_cases hloaded : s.memory.loaded a k.size
    · rw [if_pos hloaded] at hread
      exact absurd ⟨x, hread⟩ hnone
    · rw [hread, if_neg hloaded]
  value k a x bytes hx hbytes := by
    obtain ⟨y, hy, hread⟩ := perform_read hhost k a
    rw [perform_getBytes hhost] at hbytes
    by_cases hloaded : s.memory.loaded a k.size
    · rw [if_pos hloaded] at hread hbytes
      obtain rfl : s.memory.read a k.size 0 = bytes := by simpa using hbytes
      obtain rfl : y = x := by simpa using hread.symm.trans hx
      exact ⟨s.memory.length_read a k.size 0, hy.trans (number_eq_positional _ _)⟩
    · rw [if_neg hloaded] at hbytes
      cases hbytes
  written k a n hn := by
    intro after hwritten
    have hafter : after.2.host = t.host := (host_perform _ s).trans hhost
    have hloaded := (writeBytes_ok_iff hhost a _).1 hwritten
    apply read_of_holds hafter hn
    rw [show after = _ from perform_writeBytes a _ s, patch_eq hhost]
    exact Image.holds_patch hloaded

end Host

/-- In every byte order and after every run. -/
theorem readsScalars_run {t : Snapshot} {stored : Stored} (accepted : t.load = .ok stored) (capacity : Nat)
    (ops : List Operation) : ReadsScalars t.bigEndian (run (stored.session capacity) ops).2 := by
  have hstored := (Snapshot.load_eq_ok_iff.1 accepted).2
  have horder : stored.tables.bigEndian = t.bigEndian := by rw [hstored]
  exact horder ▸ readsScalars_of_host (host_run (stored.session capacity) ops)

/-- Two regions that meet, up to the last address but one, of a machine that stores the high byte first. -/
def adjoining : Stored :=
  ⟨{ bigEndian := true }, [⟨0xfffffffffffffff7, #[1, 2, 3]⟩, ⟨0xfffffffffffffffa, #[4, 5, 6, 7, 8]⟩]⟩

theorem load_adjoining : Snapshot.load { adjoining.tables with memory := adjoining.image } = .ok adjoining := by
  have hsorted : adjoining.image.mergeSort (fun r s => r.start ≤ s.start) = adjoining.image :=
    List.mergeSort_of_pairwise (by decide)
  rw [Snapshot.load_eq_ok_iff, ← Snapshot.flaw?_eq_none_iff, hsorted]
  exact ⟨rfl, by simp [adjoining]⟩

/-- A number that lies in both regions, before and after it is written. -/
theorem readsScalars_run_adjoining :
    let s := (run (adjoining.session 0) [.writeBytes 0xfffffffffffffff9 [0xff, 0xff]]).2
    let after := perform (.writeBytes 0xfffffffffffffff7 (unitBytes true 8 0x8000000000000001)) s
    (∃ x, (perform (.getDword 0xfffffffffffffff8) s).1 = .word (.ok x) ∧ x.toNat = 0x02ffff05) ∧
    after.1 = .done (.ok ()) ∧
    ∃ x, (perform (.getQword 0xfffffffffffffff7) after.2).1 = .word (.ok x) ∧ x.toNat = 0x8000000000000001 := by
  intro s after
  have hreads := readsScalars_run load_adjoining 0 [.writeBytes 0xfffffffffffffff9 [0xff, 0xff]]
  have hbytes : (perform (.getBytes 0xfffffffffffffff8 4 none) s).1 = .bytes (.ok [2, 0xff, 0xff, 5]) := rfl
  have hwritten : after.1 = .done (.ok ()) := (writeBytes_ok_iff rfl _ _).2 (by decide)
  obtain ⟨x, hx⟩ := (hreads.found_iff .dword 0xfffffffffffffff8).2 ⟨_, hbytes⟩
  obtain ⟨-, hvalue⟩ := hreads.value .dword _ x _ hx hbytes
  exact ⟨⟨x, hx, hvalue⟩, hwritten, hreads.written .qword _ _ (by decide) hwritten⟩

end Session
end BinAtlas
