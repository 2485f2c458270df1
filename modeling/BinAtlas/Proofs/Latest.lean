import BinAtlas.Proofs.Recency

/-! What a cache holds can be told from the uses of its past: with room for `n` entries it holds the
`n` keys used last, a key that was used more than once counted by its latest use. A key is then found
exactly if it is one of them. -/

namespace BinAtlas

section

variable {κ : Type} [DecidableEq κ]

/-- The keys of a history that were used last, up to `n` of them, each once. The latest use comes first. -/
def latest (n : Nat) (keys : List κ) : List κ := keys.eraseDups.take n

theorem eraseDups_filter (p : κ → Bool) (keys : List κ) : (keys.filter p).eraseDups = keys.eraseDups.filter p := by
  match keys with
  | [] => rfl
  | k :: ks =>
    have ih := eraseDups_filter p (ks.filter fun j => !j == k)
    rw [List.eraseDups_cons]
    by_cases hk : p k
    · rw [List.filter_cons_of_pos hk, List.filter_cons_of_pos hk, List.eraseDups_cons, ← ih]
      simp only [List.filter_filter, Bool.and_comm]
    · have hne : ∀ j, (p j && !j == k) = p j := by
        intro j
        by_cases hj : j = k
        · simp [hj, hk]
        · simp [hj]
      rw [List.filter_cons_of_neg hk, List.filter_cons_of_neg hk, ← ih, List.filter_filter]
      simp only [hne]
termination_by keys.length
decreasing_by exact Nat.lt_succ_of_le (List.length_filter_le _ _)

theorem eraseDups_cons (k : κ) (keys : List κ) :
    (k :: keys).eraseDups = k :: keys.eraseDups.filter (· != k) := by
  rw [List.eraseDups_cons, eraseDups_filter]
  rfl

theorem nodup_eraseDups (keys : List κ) : keys.eraseDups.Nodup := by
  induction keys with
  | nil => exact .nil
  | cons k ks ih =>
    rw [eraseDups_cons, List.nodup_cons]
    refine ⟨fun hk => ?_, ih.filter _⟩
    simp at hk

theorem eraseDups_length_mono {keys others : List κ} (h : keys ⊆ others) :
    keys.eraseDups.length ≤ others.eraseDups.length := by
  apply (nodup_eraseDups keys).length_le_of_subset
  intro k hk
  exact List.mem_eraseDups.2 (h (List.mem_eraseDups.1 hk))

/-- A key that goes to the front leaves a gap behind it of one place at most. -/
theorem take_filter_ne (n : Nat) {keys : List κ} (h : keys.Nodup) (k : κ) :
    ((keys.take (n + 1)).filter (· != k)).take n = (keys.filter (· != k)).take n := by
  rcases Nat.lt_or_ge n keys.length with hlt | hle
  · have hfirst : (keys.take (n + 1)).Nodup := h.sublist (List.take_sublist _ _)
    have hmost : n ≤ ((keys.take (n + 1)).filter (· != k)).length := by
      have hgap := List.le_length_erase (a := k) (l := keys.take (n + 1))
      rw [hfirst.erase_eq_filter, List.length_take] at hgap
      omega
    have hwhole : keys.filter (· != k) =
        (keys.take (n + 1)).filter (· != k) ++ (keys.drop (n + 1)).filter (· != k) := by
      rw [← List.filter_append, List.take_append_drop]
    rw [hwhole, List.take_append_of_le_length hmost]
  · rw [List.take_of_length_le (Nat.le_succ_of_le hle)]

theorem latest_cons (n : Nat) (k : κ) (keys : List κ) :
    latest n (k :: keys) = (k :: (latest n keys).filter (· != k)).take n := by
  unfold latest
  rw [eraseDups_cons]
  cases n with
  | zero => rfl
  | succ n => rw [List.take_succ_cons, List.take_succ_cons, take_filter_ne n (nodup_eraseDups keys)]

theorem mem_of_mem_latest {n : Nat} {k : κ} {keys : List κ} (h : k ∈ latest n keys) : k ∈ keys :=
  List.mem_eraseDups.1 (List.mem_of_mem_take h)

/-- While the history has few keys, all of them are among the latest. -/
theorem mem_latest {n : Nat} {keys : List κ} (few : keys.eraseDups.length ≤ n) {k : κ} :
    k ∈ latest n keys ↔ k ∈ keys := by
  rw [latest, List.take_of_length_le few, List.mem_eraseDups]

/-- With more room more of them count as the latest. -/
theorem latest_subset {n m : Nat} (hle : n ≤ m) (keys : List κ) : latest n keys ⊆ latest m keys :=
  List.take_subset_take_left keys.eraseDups hle

end

namespace Cache

variable {κ ν : Type}

theorem Tracks.length_le {c : Cache κ ν} {l : Recency κ ν} (h : Tracks c l) : l.length ≤ c.capacity := by
  obtain ⟨es, hes, rfl⟩ := h
  rw [List.length_map]
  exact hes.room

variable [DecidableEq κ]

/-- A cache of that capacity that was used so many times at most: it holds the keys used last. -/
structure Recent (c : Cache κ ν) (capacity uses : Nat) (keys : List κ) : Prop where
  capacity_eq : c.capacity = capacity
  clock_le : c.clock.toNat ≤ uses
  holds : ∃ l, Tracks c l ∧ l.map (·.1) = latest capacity keys

variable {c : Cache κ ν} {capacity uses : Nat} {keys : List κ}

theorem recent_empty (capacity : Nat) : (empty capacity : Cache κ ν).Recent capacity 0 [] where
  capacity_eq := rfl
  clock_le := Nat.le_refl 0
  holds := ⟨[], ⟨[], ordered_empty capacity, rfl⟩, by simp [latest]⟩

theorem Recent.clear (h : c.Recent capacity uses keys) : c.clear.Recent capacity uses [] where
  capacity_eq := h.capacity_eq
  clock_le := h.clock_le
  holds := ⟨[], ⟨[], ⟨.refl _, .nil, .nil, nofun, Nat.zero_le _⟩, rfl⟩, by simp [latest]⟩

theorem Recent.mono (h : c.Recent capacity uses keys) {more : Nat} (hle : uses ≤ more) :
    c.Recent capacity more keys :=
  { h with clock_le := Nat.le_trans h.clock_le hle }

theorem map_fst_touch (k : κ) (v : ν) (l : Recency κ ν) :
    (l.touch k v).map (·.1) = k :: (l.map (·.1)).filter (· != k) := by
  rw [Recency.touch, List.map_cons, List.filter_map]
  rfl

theorem Tracks.contains_iff {l : Recency κ ν} (h : Tracks c l) {k : κ} : c.contains k ↔ k ∈ l.map (·.1) := by
  obtain ⟨es, hes, rfl⟩ := h
  rw [hes.contains_iff, List.map_map, List.mem_map]
  rfl

theorem Tracks.get_of_contains {l : Recency κ ν} (h : Tracks c l) (tick : c.clock.toNat + 1 < UInt64.size) {k : κ}
    (hk : c.contains k) : ∃ v, Tracks (c.get k).2 (l.touch k v) := by
  have hlookup : c.contains k = (l.lookup k).isSome := by
    obtain ⟨es, hes, rfl⟩ := h
    exact hes.contains_eq k
  rw [hlookup] at hk
  obtain ⟨v, hv⟩ := Option.isSome_iff_exists.1 hk
  have htouched := (h.get tick k).2
  simp only [Recency.answer, hv] at htouched
  exact ⟨v, htouched⟩

theorem get_isSome (c : Cache κ ν) (k : κ) : (c.get k).1.isSome = c.contains k := by
  unfold get contains
  rw [← List.isSome_find?]
  cases c.entries.find? fun e => e.key == k <;> rfl

/-- Whether a key is found depends on the history alone. -/
theorem Recent.get_isSome_iff (h : c.Recent capacity uses keys) (k : κ) :
    (c.get k).1.isSome ↔ k ∈ latest capacity keys := by
  obtain ⟨l, hl, hkeys⟩ := h.holds
  rw [get_isSome, hl.contains_iff, hkeys]

theorem contains_iff_mem_keys (c : Cache κ ν) (k : κ) : c.contains k ↔ k ∈ c.keys := by
  simp [contains, keys]

/-- The keys that are stored are the ones used last. -/
theorem Recent.mem_keys_iff (h : c.Recent capacity uses keys) (k : κ) : k ∈ c.keys ↔ k ∈ latest capacity keys := by
  rw [← contains_iff_mem_keys, ← get_isSome, h.get_isSome_iff]

theorem Recent.tick (h : c.Recent capacity uses keys) (few : uses + 1 < UInt64.size) :
    c.clock.toNat + 1 < UInt64.size := by
  have hclock := h.clock_le
  omega

/-- A key that is found goes to the front. -/
theorem Recent.get (h : c.Recent capacity uses keys) (few : uses + 1 < UInt64.size) {k : κ}
    (hk : k ∈ latest capacity keys) : (c.get k).2.Recent capacity (uses + 1) (k :: keys) := by
  have hfound := (h.get_isSome_iff k).2 hk
  rw [get_isSome] at hfound
  refine ⟨(c.capacity_get k).trans h.capacity_eq, ?_, ?_⟩
  · have hclock := c.clock_answer_le (.get k)
    exact Nat.le_trans hclock (Nat.succ_le_succ h.clock_le)
  · obtain ⟨l, hl, hkeys⟩ := h.holds
    obtain ⟨v, htouched⟩ := hl.get_of_contains (h.tick few) hfound
    refine ⟨_, htouched, ?_⟩
    have hroom := htouched.length_le
    rw [← List.length_map (·.1), capacity_get, h.capacity_eq, map_fst_touch, hkeys] at hroom
    rw [map_fst_touch, hkeys, latest_cons, List.take_of_length_le hroom]

/-- A key that is put goes to the front, and the last one goes if its room is needed. -/
theorem Recent.put (h : c.Recent capacity uses keys) (few : uses + 1 < UInt64.size) (k : κ) (v : ν) :
    (c.put k v).Recent capacity (uses + 1) (k :: keys) := by
  refine ⟨(c.capacity_put k v).trans h.capacity_eq, ?_, ?_⟩
  · have hclock := c.clock_answer_le (.put k v)
    exact Nat.le_trans hclock (Nat.succ_le_succ h.clock_le)
  · obtain ⟨l, hl, hkeys⟩ := h.holds
    refine ⟨_, hl.put (h.tick few) k v, ?_⟩
    rw [List.map_take, map_fst_touch, hkeys, h.capacity_eq, latest_cons]

end Cache
end BinAtlas
