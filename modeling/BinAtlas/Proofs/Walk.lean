import BinAtlas.Proofs.Heads
import Mathlib.Data.List.Perm.Subperm

/-! The walk over a body as a host is asked for it: from the start on the next head before the end, again and
again until there is none. Nothing bounds it but the items; it ends since each step leads past one more of
them. -/

namespace BinAtlas

/-- What is met from a place on, that place first, as long as there is a next one. -/
inductive Walk {α : Type} (next : α → Option α) : α → List α → Prop
  | last {a : α} (stops : next a = none) : Walk next a [a]
  | step {a b : α} {l : List α} (goes : next a = some b) (rest : Walk next b l) : Walk next a (a :: l)

theorem Walk.unique {α : Type} {next : α → Option α} {a : α} {l l' : List α} (h : Walk next a l)
    (h' : Walk next a l') : l' = l := by
  induction h generalizing l' with
  | last stops =>
    cases h' with
    | last => rfl
    | step goes =>
      rw [stops] at goes
      cases goes
  | step goes rest ih =>
    cases h' with
    | last stops =>
      rw [goes] at stops
      cases stops
    | step goes' rest' =>
      rw [goes] at goes'
      cases goes'
      rw [ih rest']

/-- The walk over the body of a function: it ends, and it meets the start and then the items that begin in the body
after it, each address once. The lines and the references of the function are those of the addresses met. -/
structure VisitsHeads (items : List Item) (v : View) (f : FunctionEntry) (heads : List Address) : Prop where
  ends : ∀ l, Walk (v.nextHead · f.stop) f.start l ↔ l = f.start :: heads
  length_le : (f.start :: heads).length ≤ items.length + 1
  increasing : (f.start :: heads).Pairwise (· < ·)
  mem_iff : ∀ a, a ∈ heads ↔ f.start < a ∧ a < f.stop ∧ IsHead items a
  lines : v.functionLines f = (f.start :: heads).map v.getLine
  references : v.functionReferences f = (f.start :: heads).flatMap fun a => v.referencesFrom (v.itemHead a)

theorem headsFrom_eq_cons (v : View) (stop : Address) (n : Nat) (a : Address) :
    ∃ heads, v.headsFrom stop n a = a :: heads := by
  cases n with
  | zero => exact ⟨[], rfl⟩
  | succ n =>
    unfold View.headsFrom
    cases v.nextHead a stop with
    | none => exact ⟨[], rfl⟩
    | some b => exact ⟨v.headsFrom stop n b, rfl⟩

/-- Each head takes an item of its own. -/
theorem length_le_of_heads {items : List Item} {l : List Address} (increasing : l.Pairwise (· < ·))
    (heads : ∀ a ∈ l, IsHead items a) : l.length ≤ items.length := by
  have honce : l.Nodup := increasing.imp UInt64.ne_of_lt
  have hsub : l ⊆ items.map (·.address) := by
    intro a ha
    obtain ⟨i, hi, rfl⟩ := heads a ha
    exact List.mem_map_of_mem hi
  have hlength := (List.subperm_of_subset honce hsub).length_le
  rwa [List.length_map] at hlength

namespace Snapshot

variable {t : Snapshot} {stored : Stored} (accepted : t.load = .ok stored) (m : Image)

include accepted

/-- With a turn for every address up to the end the walk is not cut short. -/
theorem walk_headsFrom {stop : Address} {n : Nat} {a : Address} (enough : stop.toNat ≤ a.toNat + n) :
    Walk ((stored.tables.view m).nextHead · stop) a ((stored.tables.view m).headsFrom stop n a) := by
  induction n generalizing a with
  | zero =>
    apply Walk.last
    cases hnext : (stored.tables.view m).nextHead a stop with
    | none => rfl
    | some b =>
      obtain ⟨-, hab, hstop, -⟩ := nextHead_eq_some accepted m hnext
      rw [UInt64.lt_iff_toNat_lt] at hab hstop
      omega
  | succ n ih =>
    rw [View.headsFrom]
    cases hnext : (stored.tables.view m).nextHead a stop with
    | none => exact Walk.last hnext
    | some b =>
      obtain ⟨-, hab, -, -⟩ := nextHead_eq_some accepted m hnext
      rw [UInt64.lt_iff_toNat_lt] at hab
      exact Walk.step hnext (ih (by omega))

/-- The walk begins at the start of the body, and what follows are the items that begin in it later. -/
theorem exists_heads (f : FunctionEntry) : ∃ heads, (stored.tables.view m).heads f = f.start :: heads ∧
    (f.start :: heads).Pairwise (· < ·) ∧ ∀ a, a ∈ heads ↔ f.start < a ∧ a < f.stop ∧ IsHead t.items a := by
  have hincreasing := heads_increasing accepted m f
  have hmem := fun a => mem_heads accepted m f (b := a)
  obtain ⟨heads, hheads⟩ := headsFrom_eq_cons (stored.tables.view m) f.stop (f.stop.toNat - f.start.toNat) f.start
  rw [show (stored.tables.view m).heads f = f.start :: heads from hheads] at hincreasing hmem
  have hafter := (List.pairwise_cons.1 hincreasing).1
  refine ⟨heads, hheads, hincreasing, fun a => ?_⟩
  constructor
  · intro ha
    rcases (hmem a).1 (List.mem_cons_of_mem _ ha) with rfl | h
    · exact absurd (hafter _ ha) (UInt64.lt_irrefl _)
    · exact h
  · intro h
    rcases List.mem_cons.1 ((hmem a).2 (.inr h)) with rfl | ha
    · exact absurd h.1 (UInt64.lt_irrefl _)
    · exact ha

/-- For every record of a function, whether it is one of the snapshot or not, and whatever the items share. -/
theorem exists_visitsHeads (f : FunctionEntry) :
    ∃ heads, VisitsHeads t.items (stored.tables.view m) f heads := by
  have hwalk : Walk ((stored.tables.view m).nextHead · f.stop) f.start ((stored.tables.view m).heads f) :=
    walk_headsFrom accepted m (by omega)
  obtain ⟨heads, hheads, hincreasing, hmem⟩ := exists_heads accepted m f
  rw [hheads] at hwalk
  refine ⟨heads, fun l => ⟨hwalk.unique, ?_⟩, ?_, hincreasing, hmem, ?_, ?_⟩
  · rintro rfl
    exact hwalk
  · have hrest := (List.pairwise_cons.1 hincreasing).2
    exact Nat.succ_le_succ (length_le_of_heads hrest fun a ha => ((hmem a).1 ha).2.2)
  · rw [View.functionLines, hheads]
  · rw [View.functionReferences, hheads]

end Snapshot

/-- Items that lie within each other, two at one address, one that reaches into the body and one at its end. -/
def crowded : Snapshot :=
  { functions := [⟨0x1004, 0x1010, some "main"⟩]
    items := [⟨0x100c, 1, true, none, none, none⟩, ⟨0x1000, 8, true, none, none, none⟩,
      ⟨0x1008, 8, false, none, none, none⟩, ⟨0x1010, 4, true, none, none, none⟩,
      ⟨0x1008, 0, true, none, none, none⟩]
    edges := [⟨0x1000, 0x1008, 19, true⟩, ⟨0x1008, 0x1000, 17, true⟩] }

theorem exists_visitsHeads_crowded : ∃ stored, crowded.load = .ok stored ∧
    VisitsHeads crowded.items (stored.tables.view []) ⟨0x1004, 0x1010, some "main"⟩ [0x1008, 0x100c] := by
  have accepted := Snapshot.load_eq_ok_iff.2 ⟨(Snapshot.flaw?_eq_none_iff crowded).1 rfl, rfl⟩
  have hsorted : (crowded.items.mergeSort fun i j => i.address ≤ j.address).map (·.address) =
      [0x1000, 0x1008, 0x1008, 0x100c, 0x1010] := by
    simp [crowded, List.mergeSort, List.MergeSort.Internal.splitInTwo]
  obtain ⟨heads, hvisits⟩ := Snapshot.exists_visitsHeads accepted [] ⟨0x1004, 0x1010, some "main"⟩
  refine ⟨_, accepted, ?_⟩
  have hwalk := (hvisits.ends [0x1004, 0x1008, 0x100c]).1
    (.step (congrArg (List.find? _) hsorted) (.step (congrArg (List.find? _) hsorted)
      (.last (congrArg (List.find? _) hsorted))))
  obtain rfl : [0x1008, 0x100c] = heads := (List.cons.inj hwalk).2
  exact hvisits

end BinAtlas
