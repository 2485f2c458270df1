import BinAtlas.Proofs.Session.HostCalls

/-! Two sessions over one host whose caches differ in room. After the same look-ups and clears the roomier
caches hold every key that the others hold: both hold the keys looked up with success last, and the ones
as many of them as the others or more. So a look-up that reaches the host through the roomier caches
reaches it through the others, too. -/

namespace BinAtlas

namespace Session

variable {σ : Type} {l : Lookups} {few many : Nat} {past : List Operation} {s t : Session σ}

/-- After one past, the caches with room for more keys hold all that the others hold. -/
theorem Recalls.keys_subset (hs : Recalls l few past s) (ht : Recalls l many past t) (hle : few ≤ many)
    (kind : LookupKind) : (kind.cache s).keys ⊆ (kind.cache t).keys := by
  intro key hkey
  rw [(ht.recent kind).mem_keys_iff]
  apply latest_subset hle
  exact ((hs.recent kind).mem_keys_iff key).1 hkey

/-- One look-up: what is found with less room is found with more, so the roomier session asks only where
the other one asks, and then the same. -/
theorem Recalls.asked_sublist_lookUp (hs : Recalls l few past s) (ht : Recalls l many past t) (hle : few ≤ many)
    (hasked : t.asked.Sublist s.asked) {kind : LookupKind} (key : kind.Key) :
    (perform (kind.operation key) t).2.asked.Sublist (perform (kind.operation key) s).2.asked := by
  by_cases hfew : key ∈ latest few (kind.found l past)
  · have hmany : key ∈ latest many (kind.found l past) := latest_subset hle _ hfew
    rw [hs.asked_of_mem hfew, ht.asked_of_mem hmany]
    exact hasked
  · rw [hs.asked_of_not_mem hfew]
    by_cases hmany : key ∈ latest many (kind.found l past)
    · rw [ht.asked_of_mem hmany]
      exact hasked.cons _
    · rw [ht.asked_of_not_mem hmany]
      exact hasked.cons_cons _

theorem Recalls.asked_sublist_step (hs : Recalls l few past s) (ht : Recalls l many past t) (hle : few ≤ many)
    (hasked : t.asked.Sublist s.asked) {op : Operation} (hop : op.isLookUp ∨ op.isClear) :
    (perform op t).2.asked.Sublist (perform op s).2.asked := by
  rcases hop with hlook | hclear
  · obtain ⟨kind, key, rfl⟩ := LookupKind.exists_eq_operation hlook
    exact hs.asked_sublist_lookUp ht hle hasked key
  · rw [perform_of_isClear hclear, perform_of_isClear hclear]
    exact hasked

/-- Through a run the questions of the roomier session are some of those of the other, in their order. -/
theorem Recalls.asked_sublist_run (hs : Recalls l few past s) (ht : Recalls l many past t) (hle : few ≤ many)
    (hasked : t.asked.Sublist s.asked) {ops : List Operation} (hops : ∀ op ∈ ops, op.isLookUp ∨ op.isClear)
    (hclock : (past ++ ops).countP Operation.isLookUp < UInt64.size) :
    (run t ops).2.asked.Sublist (run s ops).2.asked := by
  induction ops generalizing past s t with
  | nil => exact hasked
  | cons op ops ih =>
    obtain ⟨hop, hrest⟩ := List.forall_mem_cons.1 hops
    rw [List.append_cons] at hclock
    have hnow : (past ++ [op]).countP Operation.isLookUp < UInt64.size :=
      Nat.lt_of_le_of_lt (List.sublist_append_left _ ops).countP_le hclock
    apply ih (hs.step hop hnow) (ht.step hop hnow)
    · exact hs.asked_sublist_step ht hle hasked hop
    · exact hrest
    · exact hclock

/-- The second session stores whatever the first one stores, and it has asked no question more often. -/
structure Outfits (s t : Session σ) : Prop where
  keys : ∀ kind : LookupKind, (kind.cache s).keys ⊆ (kind.cache t).keys
  asked : ∀ q : Question, t.count q ≤ s.count q

/-- At every moment of every run of look-ups and clears for which the clocks of the caches have words, more
room means that more is stored and less is asked. -/
theorem outfits_run (host : Host σ) (memory : σ) {few many : Nat} (hle : few ≤ many) {ops : List Operation}
    (hops : ∀ op ∈ ops, op.isLookUp ∨ op.isClear) (hclock : ops.countP Operation.isLookUp < UInt64.size) :
    ∀ past, past <+: ops → Outfits (run (start host memory few) past).2 (run (start host memory many) past).2 := by
  rintro past ⟨later, rfl⟩
  have hpast : ∀ op ∈ past, op.isLookUp ∨ op.isClear := by
    intro op hop
    exact hops op (List.mem_append_left later hop)
  have hnow : past.countP Operation.isLookUp < UInt64.size :=
    Nat.lt_of_le_of_lt (List.sublist_append_left past later).countP_le hclock
  have hfew := recalls_start host memory few
  have hmany := recalls_start host memory many
  constructor
  · exact (hfew.after hpast hnow).keys_subset (hmany.after hpast hnow) hle
  · intro q
    have hsub := hfew.asked_sublist_run hmany hle (List.Sublist.refl _) hpast hnow
    exact hsub.count_le q

/-- With room for two keys the name of the segment is not asked for again, with room for one it is. -/
theorem outfits_run_contended :
    let one := run (start oneSegment.host [] 1) contended
    let two := run (start oneSegment.host [] 2) contended
    Outfits one.2 two.2 ∧ one.2.count .segmentNamed = 2 ∧ two.2.count .segmentNamed = 1 := by
  intro one two
  have hops : ∀ op ∈ contended, op.isLookUp ∨ op.isClear := by
    simp [contended, Operation.isLookUp, Operation.isClear]
  have houtfits := outfits_run oneSegment.host [] (by decide : 1 ≤ 2) hops (by decide) contended
    (List.prefix_refl contended)
  exact ⟨houtfits, rfl, rfl⟩

end Session
end BinAtlas
