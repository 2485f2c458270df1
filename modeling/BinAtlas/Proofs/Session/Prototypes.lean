import BinAtlas.Proofs.Enumeration
import BinAtlas.Proofs.Places
import BinAtlas.Proofs.Session.ByteStore
import BinAtlas.Proofs.Session.Memoization

/-! One prototype a function. A look-up by address goes to the start of the function around it, and a function
asks from its start, where the function around is searched once more. Where no two bodies meet, that search
comes back to the same start, so all addresses of a function have one prototype, whatever the caches hold. -/

namespace BinAtlas

namespace FunctionEntry

variable {f : FunctionEntry} {a : Address}

theorem covers_iff_contains : f.covers a ↔ a = f.start ∨ f.contains a := by
  simp only [covers, contains, Bool.or_eq_true, Bool.and_eq_true, beq_iff_eq, decide_eq_true_eq,
    UInt64.le_iff_toNat_le, UInt64.lt_iff_toNat_lt, ← UInt64.toNat_inj]
  omega

/-- A function with an address in its body has its start there, too. -/
theorem contains_start (h : f.contains a) : f.contains f.start := by
  simp only [contains, Bool.and_eq_true, decide_eq_true_eq] at h ⊢
  exact ⟨UInt64.le_refl _, UInt64.lt_of_le_of_lt h.1 h.2⟩

end FunctionEntry

theorem View.getFunction_eq_ok_iff {v : View} {a : Address} {f : FunctionEntry} :
    v.getFunction a = .ok f ↔ v.functionAt a = some f := by
  unfold View.getFunction
  cases v.functionAt a <;> simp

namespace Snapshot

/-- What is recorded at an address, as the answer to a question about another one. -/
def prototypeAt (t : Snapshot) (start asked : Address) : Except Error Signature :=
  match t.signatures.find? (·.address == start) with
  | some g => .ok g
  | none => .error (.notFound (.signature asked))

theorem prototypeAt_eq_ok {t : Snapshot} {start asked : Address} {g : Signature}
    (h : t.prototypeAt start asked = .ok g) : g ∈ t.signatures ∧ g.address = start := by
  unfold prototypeAt at h
  cases hfind : t.signatures.find? (·.address == start) with
  | none =>
    rw [hfind] at h
    cases h
  | some g' =>
    rw [hfind] at h
    obtain rfl := Except.ok.inj h
    exact ⟨List.mem_of_find?_eq_some hfind, by simpa using List.find?_some hfind⟩

theorem prototypeAt_eq_error_iff {t : Snapshot} {start asked : Address} :
    t.prototypeAt start asked = .error (.notFound (.signature asked)) ↔ ∀ g ∈ t.signatures, g.address ≠ start := by
  unfold prototypeAt
  cases hfind : t.signatures.find? (·.address == start) with
  | none => simpa using List.find?_eq_none.1 hfind
  | some g =>
    refine iff_of_false nofun fun hall => ?_
    exact hall g (List.mem_of_find?_eq_some hfind) (by simpa using List.find?_some hfind)

/-- The start of the function around an address, or the address where there is none. -/
def entryAt (s : Snapshot) (a : Address) : Address := ((s.functionAt a).map (·.start)).getD a

theorem entryAt_of_functionAt {s : Snapshot} {a : Address} {f : FunctionEntry} (h : s.functionAt a = some f) :
    s.entryAt a = f.start := by
  rw [entryAt, h]
  rfl

/-- The host looks in the table at the start of the function around an address. -/
theorem functionSignature_eq (s : Snapshot) (a : Address) :
    s.lookups.functionSignature a = s.prototypeAt (s.entryAt a) a := by
  unfold Lookups.functionSignature prototypeAt entryAt
  change (match s.signatureAt a with | some g => _ | none => _) = _
  unfold signatureAt
  cases s.functionAt a <;> rfl

variable {t : Snapshot} {stored : Stored} (accepted : t.load = .ok stored) {a : Address} {f : FunctionEntry}

include accepted

theorem functionAt_eq_none_iff : stored.tables.functionAt a = none ↔ ∀ f ∈ t.functions, ¬ f.covers a := by
  rw [functionAt, functions_of_load accepted, List.find?_eq_none]
  simp only [(arranged_sorted t).perm.mem_iff]

/-- The function found around an address is one of the table, and none around the address begins before. -/
theorem of_functionAt (h : stored.tables.functionAt a = some f) :
    f ∈ t.functions ∧ f.covers a ∧ ∀ g ∈ t.functions, g.covers a → f.start ≤ g.start := by
  rw [functionAt, functions_of_load accepted] at h
  have harr := arranged_sorted t
  refine ⟨harr.perm.mem_iff.1 (List.mem_of_find?_eq_some h), by simpa using List.find?_some h, ?_⟩
  intro g hg hcov
  exact harr.le_of_find? h hg hcov

/-- What is found in a body starts where that body does: it is the one function with the address in its body, or
an empty one at the start of it. -/
theorem entryAt_of_contains (apart : Apart FunctionEntry.body t.functions) (hf : f ∈ t.functions) (ha : f.contains a) :
    stored.tables.entryAt a = f.start := by
  have hcov : f.covers a := FunctionEntry.covers_iff_contains.2 (.inr ha)
  cases hfind : stored.tables.functionAt a with
  | none => exact absurd hcov ((functionAt_eq_none_iff accepted).1 hfind f hf)
  | some g =>
    obtain ⟨hg, hcovg, hleast⟩ := of_functionAt accepted hfind
    rw [entryAt_of_functionAt hfind]
    rcases FunctionEntry.covers_iff_contains.1 hcovg with rfl | hag
    · exact UInt64.le_antisymm (hleast f hf hcov) (FunctionEntry.start_le_of_covers hcov)
    · rw [apart.eq_of_mem hg hf (FunctionEntry.mem_body_iff.2 hag) (FunctionEntry.mem_body_iff.2 ha)]

/-- The search from the start of what was found gives the same start. -/
theorem entryAt_start (apart : Apart FunctionEntry.body t.functions) (h : stored.tables.functionAt a = some f) :
    stored.tables.entryAt f.start = f.start := by
  obtain ⟨hf, hcov, -⟩ := of_functionAt accepted h
  rcases FunctionEntry.covers_iff_contains.1 hcov with rfl | ha
  · exact entryAt_of_functionAt h
  · exact entryAt_of_contains accepted apart hf (FunctionEntry.contains_start ha)

/-- In no body there is no function around the address, or one that is empty and starts there. -/
theorem entryAt_of_outside (ha : ∀ f ∈ t.functions, ¬ f.contains a) : stored.tables.entryAt a = a := by
  cases hfind : stored.tables.functionAt a with
  | none =>
    rw [entryAt, hfind]
    rfl
  | some f =>
    obtain ⟨hf, hcov, -⟩ := of_functionAt accepted hfind
    rcases FunctionEntry.covers_iff_contains.1 hcov with rfl | hin
    · exact entryAt_of_functionAt hfind
    · exact absurd hin (ha f hf)

end Snapshot

namespace Session

/-- What a session says of prototypes: those of a function are what is recorded at its start, asked for by any
address that leads to it, by any address in its body, or by the function itself; outside of all bodies it is what is
recorded at the very address. -/
structure SharesPrototypes (t : Snapshot) (s : Session Image) : Prop where
  atAddress : ∀ a f, s.view.getFunction a = .ok f →
    (perform (.getSignature a) s).1 = .signature (t.prototypeAt f.start a)
  ofFunction : ∀ a f, s.view.getFunction a = .ok f →
    (perform (.functionSignature a) s).1 = .signature (t.prototypeAt f.start f.start)
  inBody : ∀ f ∈ t.functions, ∀ a, f.contains a →
    (perform (.getSignature a) s).1 = .signature (t.prototypeAt f.start a)
  outside : ∀ a, (∀ f ∈ t.functions, ¬ f.contains a) →
    (perform (.getSignature a) s).1 = .signature (t.prototypeAt a a)
  recorded : ∀ start asked g, t.prototypeAt start asked = .ok g → g ∈ t.signatures ∧ g.address = start
  missing : ∀ start asked,
    t.prototypeAt start asked = .error (.notFound (.signature asked)) ↔ ∀ g ∈ t.signatures, g.address ≠ start

theorem perform_functionSignature {s : Session Image} {a : Address} {f : FunctionEntry}
    (h : s.view.getFunction a = .ok f) : perform (.functionSignature a) s = perform (.getSignature f.start) s := by
  have hget : ∀ next : Session Image → Action Image Answer, (get >>= next) s = next s s := fun _ => rfl
  simp only [perform, hget, h]

/-- What a session says of an address, whatever its caches hold. -/
theorem LooksUp.prototype {t : Snapshot} {stored : Stored} (accepted : t.load = .ok stored) {s : Session Image}
    (h : LooksUp stored.tables.lookups s) (a : Address) :
    (perform (.getSignature a) s).1 = .signature (t.prototypeAt (stored.tables.entryAt a) a) := by
  have hsignatures : stored.tables.signatures = t.signatures := by
    obtain ⟨-, rfl⟩ := Snapshot.load_eq_ok_iff.1 accepted
    rfl
  rw [h.signature_eq, Snapshot.functionSignature_eq, Snapshot.prototypeAt, hsignatures]
  rfl

/-- At every moment of every run a function has one prototype. -/
theorem sharesPrototypes_run {t : Snapshot} {stored : Stored} (accepted : t.load = .ok stored)
    (apart : Apart FunctionEntry.body t.functions) (capacity : Nat) (ops : List Operation) :
    SharesPrototypes t (run (stored.session capacity) ops).2 := by
  have hlooks : LooksUp stored.tables.lookups (run (stored.session capacity) ops).2 :=
    looksUp_run stored.tables.host stored.image capacity ops
  have hview := view_eq (host_run (stored.session capacity) ops)
  generalize (run (stored.session capacity) ops).2 = s at hlooks hview ⊢
  have hprototype := hlooks.prototype accepted
  have hfunction : ∀ {a f}, s.view.getFunction a = .ok f → stored.tables.functionAt a = some f := by
    intro a f hf
    rw [hview] at hf
    exact View.getFunction_eq_ok_iff.1 hf
  constructor
  case atAddress =>
    intro a f hf
    rw [hprototype, Snapshot.entryAt_of_functionAt (hfunction hf)]
  case ofFunction =>
    intro a f hf
    rw [perform_functionSignature hf, hprototype, Snapshot.entryAt_start accepted apart (hfunction hf)]
  case inBody =>
    intro f hf a ha
    rw [hprototype, Snapshot.entryAt_of_contains accepted apart hf ha]
  case outside =>
    intro a ha
    rw [hprototype, Snapshot.entryAt_of_outside accepted ha]
  case recorded =>
    intro start asked g hg
    exact Snapshot.prototypeAt_eq_ok hg
  case missing =>
    intro start asked
    exact Snapshot.prototypeAt_eq_error_iff

/-- Empty functions at the start of a body and within one, with a prototype at each start and one in the body. -/
def stubs : Snapshot :=
  { functions := [⟨0x1010, 0x1020, none⟩, ⟨0x1000, 0x1000, some "stub"⟩, ⟨0x1000, 0x1010, some "main"⟩,
      ⟨0x1018, 0x1018, none⟩]
    signatures := [⟨0x1008, "void inner()", "void", "", []⟩, ⟨0x1000, "int main()", "int", "", []⟩,
      ⟨0x1000, "int other()", "int", "", []⟩, ⟨0x1018, "int late()", "int", "", []⟩] }

/-- The one prototype of a function, with a cache that holds the answer for another of its addresses, and none for
a function although there is one at an address in its body. -/
theorem sharesPrototypes_run_stubs : ∃ stored, stubs.load = .ok stored ∧
    let s := (run (stored.session 1) [.getSignature 0x100c, .functionSignature 0x1018]).2
    SharesPrototypes stubs s ∧
      (perform (.getSignature 0x1008) s).1 = .signature (.ok ⟨0x1000, "int main()", "int", "", []⟩) ∧
      (perform (.getSignature 0x1018) s).1 = .signature (.error (.notFound (.signature 0x1018))) := by
  have accepted := Snapshot.load_eq_ok_iff.2 ⟨(Snapshot.flaw?_eq_none_iff stubs).1 rfl, rfl⟩
  have apart : Apart FunctionEntry.body stubs.functions := by
    simp [Apart, FunctionEntry.body, stubs, Set.Ico_disjoint_Ico]
  have hshares := sharesPrototypes_run accepted apart 1 [.getSignature 0x100c, .functionSignature 0x1018]
  refine ⟨_, accepted, hshares, ?_, ?_⟩
  · exact hshares.inBody ⟨0x1000, 0x1010, some "main"⟩ (by decide) 0x1008 (by decide)
  · exact hshares.inBody ⟨0x1010, 0x1020, none⟩ (by decide) 0x1018 (by decide)

end Session
end BinAtlas
