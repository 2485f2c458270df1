import BinAtlas.Cache
import BinAtlas.Proofs.Address

/-! A cache answers as a list of its keys by latest use does. The list has no times: a use moves a
key to the front, and what goes beyond the capacity falls off the end. The cache keeps its entries
in a table whose order means nothing, so it is followed through runs in which the entries are laid
out anew before every call. -/

namespace BinAtlas

namespace Cache

variable {κ ν : Type}

inductive Call (κ ν : Type) where
  | get (k : κ)
  | put (k : κ) (v : ν)
  | contains (k : κ)
  | size
  | clear

inductive Reply (ν : Type) where
  | value (v : Option ν)
  | flag (b : Bool)
  | count (n : Nat)
  | done

/-- The calls that may move the clock. -/
def Call.isUse : Call κ ν → Bool
  | .get _ | .put .. => true
  | _ => false

/-- The same cache with its entries in another order. -/
structure Shuffled (c d : Cache κ ν) : Prop where
  capacity : d.capacity = c.capacity
  clock : d.clock = c.clock
  entries : d.entries.Perm c.entries

theorem Shuffled.refl (c : Cache κ ν) : Shuffled c c := ⟨rfl, rfl, .refl _⟩

variable [DecidableEq κ]

def answer (c : Cache κ ν) : Call κ ν → Reply ν × Cache κ ν
  | .get k => (.value (c.get k).1, (c.get k).2)
  | .put k v => (.done, c.put k v)
  | .contains k => (.flag (c.contains k), c)
  | .size => (.count c.size, c)
  | .clear => (.done, c.clear)

/-- What calls answer one after another, and the cache after them, if the table may list the entries
in any order at every moment. -/
inductive Runs : Cache κ ν → List (Call κ ν) → List (Reply ν) → Cache κ ν → Prop
  | nil {c d : Cache κ ν} (h : Shuffled c d) : Runs c [] [] d
  | cons {c d e : Cache κ ν} {call : Call κ ν} {calls : List (Call κ ν)} {replies : List (Reply ν)}
      (h : Shuffled c d) (rest : Runs (d.answer call).2 calls replies e) :
      Runs c (call :: calls) ((d.answer call).1 :: replies) e

end Cache

/-- Keys with their values by latest use, the latest first. -/
abbrev Recency (κ ν : Type) := List (κ × ν)

namespace Recency

variable {κ ν : Type} [DecidableEq κ]

/-- Puts a key in front, and out of the place it had. -/
def touch (k : κ) (v : ν) (l : Recency κ ν) : Recency κ ν := (k, v) :: l.filter fun p => p.1 != k

def answer (capacity : Nat) (l : Recency κ ν) : Cache.Call κ ν → Cache.Reply ν × Recency κ ν
  | .get k =>
    match l.lookup k with
    | none => (.value none, l)
    | some v => (.value (some v), l.touch k v)
  | .put k v => (.done, (l.touch k v).take capacity)
  | .contains k => (.flag (l.lookup k).isSome, l)
  | .size => (.count l.length, l)
  | .clear => (.done, [])

def run (capacity : Nat) (l : Recency κ ν) : List (Cache.Call κ ν) → List (Cache.Reply ν) × Recency κ ν
  | [] => ([], l)
  | call :: calls =>
    let (reply, l) := l.answer capacity call
    let (replies, l) := run capacity l calls
    (reply :: replies, l)

end Recency

namespace Cache

variable {κ ν : Type}

def Entry.pair (e : Entry κ ν) : κ × ν := (e.key, e.value)

/-- The entries of a cache by their times, the latest first. -/
structure Ordered (c : Cache κ ν) (es : List (Entry κ ν)) : Prop where
  perm : es.Perm c.entries
  later : es.Pairwise fun e f => f.used < e.used
  keys : es.Pairwise fun e f => e.key ≠ f.key
  past : ∀ e ∈ es, e.used ≤ c.clock
  room : es.length ≤ c.capacity

theorem ordered_empty (capacity : Nat) : Ordered (empty capacity : Cache κ ν) [] :=
  ⟨.refl _, .nil, .nil, nofun, Nat.zero_le _⟩

theorem Ordered.shuffled {c d : Cache κ ν} {es : List (Entry κ ν)} (h : Ordered c es) (hd : Shuffled c d) :
    Ordered d es :=
  ⟨h.perm.trans hd.entries.symm, h.later, h.keys, by rw [hd.clock]; exact h.past, by rw [hd.capacity]; exact h.room⟩

theorem Ordered.size_eq {c : Cache κ ν} {es : List (Entry κ ν)} (h : Ordered c es) : c.size = es.length :=
  h.perm.length_eq.symm

/-- The cache holds the entries of the list. -/
def Tracks (c : Cache κ ν) (l : Recency κ ν) : Prop := ∃ es, Ordered c es ∧ es.map Entry.pair = l

theorem Tracks.shuffled {c d : Cache κ ν} {l : Recency κ ν} (h : Tracks c l) (hd : Shuffled c d) : Tracks d l := by
  obtain ⟨es, hes, hl⟩ := h
  exact ⟨es, hes.shuffled hd, hl⟩

theorem oldest?_cons_isSome (e : Entry κ ν) (es : List (Entry κ ν)) : (oldest? (e :: es)).isSome := by
  rw [oldest?]
  cases oldest? es with
  | none => rfl
  | some f =>
    dsimp only
    split <;> rfl

/-- The scan finds an entry that no other one is older than. -/
theorem oldest?_eq_some {es : List (Entry κ ν)} {e : Entry κ ν} (h : oldest? es = some e) :
    e ∈ es ∧ ∀ f ∈ es, e.used ≤ f.used := by
  induction es generalizing e with
  | nil => cases h
  | cons g es ih =>
    rw [oldest?] at h
    cases hg : oldest? es with
    | none =>
      cases es with
      | nil =>
        rw [hg] at h
        cases h
        simp
      | cons f es =>
        have hsome := oldest?_cons_isSome f es
        rw [hg] at hsome
        cases hsome
    | some f =>
      rw [hg] at h
      obtain ⟨hf, hmin⟩ := ih hg
      dsimp only at h
      split at h
      next hlt =>
        cases h
        exact ⟨List.mem_cons_of_mem _ hf, List.forall_mem_cons.2 ⟨UInt64.le_of_lt hlt, hmin⟩⟩
      next hle =>
        cases h
        refine ⟨List.mem_cons_self, List.forall_mem_cons.2 ⟨UInt64.le_refl _, fun x hx => ?_⟩⟩
        exact UInt64.le_trans (UInt64.not_lt.1 hle) (hmin x hx)

theorem Ordered.exists_concat {c : Cache κ ν} {es : List (Entry κ ν)} (h : Ordered c es) (h0 : c.capacity ≠ 0)
    (hfull : c.capacity ≤ c.size) : ∃ fs e, es = fs ++ [e] ∧ c.capacity = fs.length + 1 := by
  have hroom := h.room
  rw [h.size_eq] at hfull
  rcases List.eq_nil_or_concat es with rfl | ⟨fs, e, rfl⟩
  · exact absurd (Nat.le_zero.1 hfull) h0
  · rw [List.concat_eq_append, List.length_append, List.length_singleton] at *
    exact ⟨fs, e, rfl, Nat.le_antisymm hfull hroom⟩

/-- The entry of the latest place in the order is the one the scan finds, in whatever order it looks. -/
theorem Ordered.oldest?_eq {c : Cache κ ν} {es : List (Entry κ ν)} {e : Entry κ ν} (h : Ordered c (es ++ [e])) :
    oldest? c.entries = some e := by
  have he : e ∈ c.entries := h.perm.mem_iff.1 (List.mem_append_right _ List.mem_cons_self)
  obtain ⟨g, hg⟩ : ∃ g, oldest? c.entries = some g := by
    cases hc : c.entries with
    | nil =>
      rw [hc] at he
      cases he
    | cons f fs => exact Option.isSome_iff_exists.1 (oldest?_cons_isSome f fs)
  obtain ⟨hmem, hmin⟩ := oldest?_eq_some hg
  rcases List.mem_append.1 (h.perm.mem_iff.2 hmem) with hfirst | hlast
  · -- an entry before the last one was used after it
    have hlt := (List.pairwise_append.1 h.later).2.2 g hfirst e List.mem_cons_self
    exact absurd hlt (UInt64.not_lt.2 (hmin e he))
  · rw [hg, List.mem_singleton.1 hlast]

/-- A use puts a new entry in front of some of the old ones. The clock must not wrap around. -/
theorem Ordered.front {c : Cache κ ν} {es fs gs : List (Entry κ ν)} (h : Ordered c es)
    (tick : c.clock.toNat + 1 < UInt64.size) (hsub : fs.Sublist es) (hperm : fs.Perm gs) {k : κ} (v : ν)
    (hk : ∀ e ∈ fs, e.key ≠ k) (hroom : fs.length < c.capacity) :
    Ordered { c with clock := c.clock + 1, entries := ⟨k, v, c.clock + 1⟩ :: gs } (⟨k, v, c.clock + 1⟩ :: fs) := by
  have hpast : ∀ e ∈ fs, e.used < c.clock + 1 := by
    intro e he
    have hle := UInt64.le_iff_toNat_le.1 (h.past e (hsub.subset he))
    rw [UInt64.lt_iff_toNat_lt, Address.toNat_add_of_lt tick]
    exact Nat.lt_succ_of_le hle
  refine ⟨hperm.cons _, ?_, ?_, ?_, hroom⟩
  · exact List.pairwise_cons.2 ⟨hpast, h.later.sublist hsub⟩
  · exact List.pairwise_cons.2 ⟨fun e he => (hk e he).symm, h.keys.sublist hsub⟩
  · exact List.forall_mem_cons.2 ⟨UInt64.le_refl _, fun e he => UInt64.le_of_lt (hpast e he)⟩

variable [DecidableEq κ]

theorem find?_eq_some_of_mem {es : List (Entry κ ν)} (hk : es.Pairwise fun e f => e.key ≠ f.key) {e : Entry κ ν}
    (he : e ∈ es) : es.find? (fun f => f.key == e.key) = some e := by
  induction es with
  | nil => cases he
  | cons g es ih =>
    obtain ⟨hg, hes⟩ := List.pairwise_cons.1 hk
    rcases List.mem_cons.1 he with rfl | he
    · exact List.find?_cons_of_pos (beq_self_eq_true _)
    · rw [List.find?_cons, beq_false_of_ne (hg e he), ih hes he]

/-- A look-up in the table does not depend on its order. -/
theorem Ordered.find?_eq {c : Cache κ ν} {es : List (Entry κ ν)} (h : Ordered c es) (k : κ) :
    c.entries.find? (fun e => e.key == k) = es.find? fun e => e.key == k := by
  have hkeys : c.entries.Pairwise fun e f => e.key ≠ f.key := h.perm.pairwise h.keys Ne.symm
  cases hf : es.find? fun e => e.key == k with
  | some e =>
    have hkey := List.find?_some hf
    obtain rfl : e.key = k := eq_of_beq hkey
    exact find?_eq_some_of_mem hkeys (h.perm.mem_iff.1 (List.mem_of_find?_eq_some hf))
  | none =>
    rw [List.find?_eq_none] at hf ⊢
    exact fun e he => hf e (h.perm.mem_iff.2 he)

theorem lookup_map_pair (es : List (Entry κ ν)) (k : κ) :
    (es.map Entry.pair).lookup k = (es.find? fun e => e.key == k).map (·.value) := by
  induction es with
  | nil => rfl
  | cons e es ih =>
    rw [List.map_cons, Entry.pair, List.lookup_cons, List.find?_cons, ih, Bool.beq_comm]
    cases e.key == k <;> rfl

theorem map_pair_without (k : κ) (es : List (Entry κ ν)) :
    (without k es).map Entry.pair = (es.map Entry.pair).filter fun p => p.1 != k := by
  rw [List.filter_map]
  rfl

theorem mem_without {k : κ} {es : List (Entry κ ν)} {e : Entry κ ν} : e ∈ without k es ↔ e ∈ es ∧ e.key ≠ k := by
  rw [without, List.mem_filter, bne_iff_ne]

theorem Ordered.contains_eq {c : Cache κ ν} {es : List (Entry κ ν)} (h : Ordered c es) (k : κ) :
    c.contains k = ((es.map Entry.pair).lookup k).isSome := by
  rw [lookup_map_pair, ← h.find?_eq, Option.isSome_map, List.isSome_find?]
  rfl

theorem length_without_lt {k : κ} {es : List (Entry κ ν)} {e : Entry κ ν} (he : e ∈ es) (hk : e.key = k) :
    (without k es).length < es.length := by
  refine List.length_filter_lt_length_iff_exists.2 ⟨e, he, ?_⟩
  rw [hk, bne_self_eq_false]
  exact Bool.false_ne_true

/-- A key that is there moves to the front, with a value that may be new. -/
theorem Ordered.tracks_touch {c : Cache κ ν} {es : List (Entry κ ν)} (h : Ordered c es)
    (tick : c.clock.toNat + 1 < UInt64.size) {k : κ} (hk : ∃ e ∈ es, e.key = k) (v : ν) :
    Tracks { c with clock := c.clock + 1, entries := ⟨k, v, c.clock + 1⟩ :: without k c.entries }
      (Recency.touch k v (es.map Entry.pair)) := by
  obtain ⟨e, he, hkey⟩ := hk
  have hshort : (without k es).length < c.capacity := Nat.lt_of_lt_of_le (length_without_lt he hkey) h.room
  refine ⟨_, h.front tick List.filter_sublist (h.perm.filter _) v (fun f hf => (mem_without.1 hf).2) hshort, ?_⟩
  rw [List.map_cons]
  exact congrArg _ (map_pair_without k es)

theorem Tracks.get {c : Cache κ ν} {l : Recency κ ν} (h : Tracks c l) (tick : c.clock.toNat + 1 < UInt64.size) (k : κ) :
    (c.answer (.get k)).1 = (l.answer c.capacity (.get k)).1 ∧
      Tracks (c.answer (.get k)).2 (l.answer c.capacity (.get k)).2 := by
  obtain ⟨es, hes, rfl⟩ := h
  simp only [answer, Cache.get, Recency.answer, hes.find?_eq, lookup_map_pair]
  cases hf : es.find? fun e => e.key == k with
  | none => exact ⟨rfl, es, hes, rfl⟩
  | some e =>
    have hkey := List.find?_some hf
    obtain rfl : e.key = k := eq_of_beq hkey
    exact ⟨rfl, hes.tracks_touch tick ⟨e, List.mem_of_find?_eq_some hf, rfl⟩ e.value⟩

theorem contains_iff {c : Cache κ ν} {k : κ} : c.contains k ↔ ∃ e ∈ c.entries, e.key = k := by
  rw [contains, List.any_eq_true]
  simp only [beq_iff_eq]

theorem Ordered.contains_iff {c : Cache κ ν} {es : List (Entry κ ν)} (h : Ordered c es) {k : κ} :
    c.contains k ↔ ∃ e ∈ es, e.key = k := by
  simp only [Cache.contains_iff, h.perm.mem_iff]

theorem contains_cons {capacity : Nat} {clock : UInt64} {e : Entry κ ν} {es : List (Entry κ ν)} {j : κ} :
    (Cache.mk capacity clock (e :: es)).contains j ↔ j = e.key ∨ ∃ f ∈ es, f.key = j := by
  simp only [contains_iff, List.mem_cons, exists_eq_or_imp, @eq_comm κ j]

theorem put_of_capacity_zero {c : Cache κ ν} (h : c.capacity = 0) (k : κ) (v : ν) : c.put k v = c := if_pos h

/-- A key that is there takes its own place. -/
theorem put_of_contains {c : Cache κ ν} {k : κ} (h0 : c.capacity ≠ 0) (hk : c.contains k) (v : ν) :
    c.put k v = { c with clock := c.clock + 1, entries := ⟨k, v, c.clock + 1⟩ :: without k c.entries } := by
  rw [put, if_neg h0, if_pos hk]

theorem put_of_lt {c : Cache κ ν} {k : κ} (hk : ¬ c.contains k) (hroom : c.size < c.capacity) (v : ν) :
    c.put k v = { c with clock := c.clock + 1, entries := ⟨k, v, c.clock + 1⟩ :: c.entries } := by
  rw [put, if_neg (Nat.ne_zero_of_lt hroom), if_neg hk, if_neg (Nat.not_le.2 hroom)]

/-- A new key takes the place of the entry used longest ago. -/
theorem Ordered.put_of_le {c : Cache κ ν} {es : List (Entry κ ν)} {e : Entry κ ν} (h : Ordered c (es ++ [e]))
    (h0 : c.capacity ≠ 0) {k : κ} (hk : ¬ c.contains k) (hfull : c.capacity ≤ c.size) (v : ν) :
    c.put k v = { c with clock := c.clock + 1, entries := ⟨k, v, c.clock + 1⟩ :: without e.key c.entries } := by
  rw [put, if_neg h0, if_neg hk, if_pos hfull, dropOldest, h.oldest?_eq]

theorem Ordered.without_last {c : Cache κ ν} {es : List (Entry κ ν)} {e : Entry κ ν} (h : Ordered c (es ++ [e])) :
    es.Perm (without e.key c.entries) := by
  refine List.Perm.trans (.of_eq ?_) (h.perm.filter _)
  have hkeys := (List.pairwise_append.1 h.keys).2.2
  rw [List.filter_append, List.filter_eq_self.2 fun f hf => bne_iff_ne.2 (hkeys f hf e List.mem_cons_self)]
  simp

theorem Tracks.put {c : Cache κ ν} {l : Recency κ ν} (h : Tracks c l) (tick : c.clock.toNat + 1 < UInt64.size) (k : κ)
    (v : ν) : Tracks (c.put k v) ((l.touch k v).take c.capacity) := by
  obtain ⟨es, hes, rfl⟩ := h
  by_cases h0 : c.capacity = 0
  · have hnil : es = [] := List.eq_nil_of_length_eq_zero (Nat.le_zero.1 (h0 ▸ hes.room))
    rw [put_of_capacity_zero h0, h0, List.take_zero]
    exact ⟨es, hes, by rw [hnil]; rfl⟩
  by_cases hk : c.contains k
  · obtain ⟨fs, hfs, hmap⟩ := hes.tracks_touch tick (hes.contains_iff.1 hk) v
    have hroom : fs.length ≤ c.capacity := hfs.room
    rw [put_of_contains h0 hk, List.take_of_length_le (by rw [← hmap, List.length_map]; exact hroom)]
    exact ⟨fs, hfs, hmap⟩
  have hfresh : ∀ e ∈ es, e.key ≠ k := fun e he hek => hk (hes.contains_iff.2 ⟨e, he, hek⟩)
  have htouch : Recency.touch k v (es.map Entry.pair) = (k, v) :: es.map Entry.pair := by
    rw [Recency.touch, ← map_pair_without, without, List.filter_eq_self.2 fun e he => bne_iff_ne.2 (hfresh e he)]
  rw [htouch]
  by_cases hroom : c.size < c.capacity
  · have hlt : es.length < c.capacity := by rwa [← hes.size_eq]
    rw [put_of_lt hk hroom, List.take_of_length_le (by rw [List.length_cons, List.length_map]; exact hlt)]
    exact ⟨_, hes.front tick (List.Sublist.refl es) hes.perm v hfresh hlt, rfl⟩
  · -- the last one of the list is the one the scan finds
    obtain ⟨fs, e, rfl, hcap⟩ := hes.exists_concat h0 (Nat.not_lt.1 hroom)
    rw [hes.put_of_le h0 hk (Nat.not_lt.1 hroom)]
    refine ⟨_, hes.front tick (List.sublist_append_left fs [e]) hes.without_last v ?_ (by omega), ?_⟩
    · exact fun f hf => hfresh f (List.mem_append_left _ hf)
    · rw [hcap, List.take_succ_cons, List.map_append, List.take_left' (List.length_map _)]
      rfl

theorem capacity_put (c : Cache κ ν) (k : κ) (v : ν) : (c.put k v).capacity = c.capacity := by
  unfold put
  split <;> rfl

theorem capacity_get (c : Cache κ ν) (k : κ) : (c.get k).2.capacity = c.capacity := by
  unfold get
  split <;> rfl

theorem capacity_answer (c : Cache κ ν) (call : Call κ ν) : (c.answer call).2.capacity = c.capacity := by
  cases call with
  | get k => exact c.capacity_get k
  | put k v => exact c.capacity_put k v
  | contains | size | clear => rfl

/-- A call moves the clock by one at most. -/
theorem clock_answer_le (c : Cache κ ν) (call : Call κ ν) :
    (c.answer call).2.clock.toNat ≤ c.clock.toNat + if call.isUse then 1 else 0 := by
  have hnext : (c.clock + 1).toNat ≤ c.clock.toNat + 1 := by
    rw [UInt64.toNat_add]
    exact Nat.mod_le _ _
  cases call with
  | get k =>
    simp only [answer, get, Call.isUse, if_true]
    split
    · exact Nat.le_succ _
    · exact hnext
  | put k v =>
    simp only [answer, put, Call.isUse, if_true]
    split
    · exact Nat.le_succ _
    · exact hnext
  | contains | size | clear => exact Nat.le_refl _

/-- One call, answered by the list as by the cache. -/
theorem Tracks.answer {c : Cache κ ν} {l : Recency κ ν} (h : Tracks c l) (call : Call κ ν)
    (tick : call.isUse → c.clock.toNat + 1 < UInt64.size) :
    (c.answer call).1 = (l.answer c.capacity call).1 ∧ Tracks (c.answer call).2 (l.answer c.capacity call).2 := by
  cases call with
  | get k => exact h.get (tick rfl) k
  | put k v => exact ⟨rfl, h.put (tick rfl) k v⟩
  | contains k =>
    obtain ⟨es, hes, rfl⟩ := h
    exact ⟨congrArg Reply.flag (hes.contains_eq k), es, hes, rfl⟩
  | size =>
    obtain ⟨es, hes, rfl⟩ := h
    refine ⟨congrArg Reply.count ?_, es, hes, rfl⟩
    rw [hes.size_eq, List.length_map]
  | clear => exact ⟨rfl, [], ⟨.refl _, .nil, .nil, nofun, Nat.zero_le _⟩, rfl⟩

theorem Runs.capacity {c d : Cache κ ν} {calls : List (Call κ ν)} {replies : List (Reply ν)}
    (hr : Runs c calls replies d) : d.capacity = c.capacity := by
  induction hr with
  | nil hd => exact hd.capacity
  | cons hd rest ih => rw [ih, capacity_answer, hd.capacity]

/-- Calls one after another, until the clock has gone through all words. -/
theorem Tracks.runs {c d : Cache κ ν} {calls : List (Call κ ν)} {replies : List (Reply ν)} (hr : Runs c calls replies d)
    {l : Recency κ ν} (h : Tracks c l) (few : c.clock.toNat + calls.countP Call.isUse < UInt64.size) :
    replies = (l.run c.capacity calls).1 ∧ Tracks d (l.run c.capacity calls).2 := by
  induction hr generalizing l with
  | nil hd => exact ⟨rfl, h.shuffled hd⟩
  | @cons c d e call calls replies hd rest ih =>
    rw [List.countP_cons, ← hd.clock] at few
    have htick : call.isUse → d.clock.toNat + 1 < UInt64.size := by
      intro huse
      rw [if_pos huse] at few
      omega
    obtain ⟨hreply, hnext⟩ := (h.shuffled hd).answer call htick
    have hclock := d.clock_answer_le call
    obtain ⟨hreplies, hlast⟩ := ih hnext (by omega)
    rw [capacity_answer, hd.capacity] at hreplies hlast
    rw [hd.capacity] at hreply
    exact ⟨congr (congrArg List.cons hreply) hreplies, hlast⟩

/-- A cache beside the list: the same entries, each key once, and the capacity kept. What a put evicts
is nothing while the key is there or room is left, and else the last key of the list alone. -/
structure Agrees (c : Cache κ ν) (l : Recency κ ν) : Prop where
  entries : (c.entries.map Entry.pair).Perm l
  once : (l.map (·.1)).Nodup
  size_le : c.size ≤ c.capacity
  put_known : ∀ k v, c.contains k → ∀ j, (c.put k v).contains j ↔ c.contains j
  put_room : ∀ k v, ¬ c.contains k → c.size < c.capacity → ∀ j, (c.put k v).contains j ↔ j = k ∨ c.contains j
  put_full : ∀ k v, ¬ c.contains k → c.size = c.capacity → 0 < c.capacity →
    ∃ last, l.getLast? = some last ∧ c.contains last.1 ∧
      ∀ j, (c.put k v).contains j ↔ j = k ∨ c.contains j ∧ j ≠ last.1
  nothing : c.capacity = 0 → c.size = 0 ∧ ∀ k v, c.put k v = c

theorem Ordered.capacity_ne_zero {c : Cache κ ν} {es : List (Entry κ ν)} (h : Ordered c es) {k : κ}
    (hk : c.contains k) : c.capacity ≠ 0 := by
  obtain ⟨e, he, -⟩ := h.contains_iff.1 hk
  exact Nat.ne_zero_of_lt (Nat.lt_of_lt_of_le (List.length_pos_of_mem he) h.room)

theorem contains_put_of_contains {c : Cache κ ν} {k : κ} (h0 : c.capacity ≠ 0) (hk : c.contains k) (v : ν) (j : κ) :
    (c.put k v).contains j ↔ c.contains j := by
  obtain ⟨e, he, rfl⟩ := contains_iff.1 hk
  rw [put_of_contains h0 hk, contains_cons, contains_iff]
  constructor
  · rintro (rfl | ⟨f, hf, rfl⟩)
    · exact ⟨e, he, rfl⟩
    · exact ⟨f, (mem_without.1 hf).1, rfl⟩
  · rintro ⟨f, hf, rfl⟩
    by_cases hfe : f.key = e.key
    · exact .inl hfe
    · exact .inr ⟨f, mem_without.2 ⟨hf, hfe⟩, rfl⟩

theorem contains_put_of_lt {c : Cache κ ν} {k : κ} (hk : ¬ c.contains k) (hroom : c.size < c.capacity) (v : ν) (j : κ) :
    (c.put k v).contains j ↔ j = k ∨ c.contains j := by
  rw [put_of_lt hk hroom, contains_cons, contains_iff]

theorem Ordered.contains_put_of_le {c : Cache κ ν} {es : List (Entry κ ν)} {e : Entry κ ν} (h : Ordered c (es ++ [e]))
    (h0 : c.capacity ≠ 0) {k : κ} (hk : ¬ c.contains k) (hfull : c.capacity ≤ c.size) (v : ν) (j : κ) :
    (c.put k v).contains j ↔ j = k ∨ c.contains j ∧ j ≠ e.key := by
  rw [h.put_of_le h0 hk hfull, contains_cons, Cache.contains_iff]
  refine or_congr_right ?_
  constructor
  · rintro ⟨f, hf, rfl⟩
    exact ⟨⟨f, (mem_without.1 hf).1, rfl⟩, (mem_without.1 hf).2⟩
  · rintro ⟨⟨f, hf, rfl⟩, hne⟩
    exact ⟨f, mem_without.2 ⟨hf, hne⟩, rfl⟩

theorem Tracks.agrees {c : Cache κ ν} {l : Recency κ ν} (h : Tracks c l) : Agrees c l := by
  obtain ⟨es, hes, rfl⟩ := h
  have hroom : c.size ≤ c.capacity := hes.size_eq ▸ hes.room
  refine ⟨hes.perm.symm.map _, ?_, hroom, ?_, fun k v hk hlt => contains_put_of_lt hk hlt v, ?_, ?_⟩
  · rw [List.map_map, List.nodup_iff_pairwise_ne, List.pairwise_map]
    exact hes.keys
  · intro k v hk
    exact contains_put_of_contains (hes.capacity_ne_zero hk) hk v
  · intro k v hk hfull hpos
    have h0 : c.capacity ≠ 0 := Nat.ne_of_gt hpos
    have hle : c.capacity ≤ c.size := Nat.le_of_eq hfull.symm
    obtain ⟨fs, e, rfl, -⟩ := hes.exists_concat h0 hle
    refine ⟨e.pair, by simp, ?_, hes.contains_put_of_le h0 hk hle v⟩
    exact hes.contains_iff.2 ⟨e, List.mem_append_right _ List.mem_cons_self, rfl⟩
  · intro h0
    exact ⟨Nat.le_zero.1 (h0 ▸ hroom), put_of_capacity_zero h0⟩

/-- From an empty cache on, for as many calls as the clock has words, every reply is that of the list,
whatever order the table lists its entries in. -/
theorem agrees_runs {capacity : Nat} {calls : List (Call κ ν)} {replies : List (Reply ν)} {c : Cache κ ν}
    (hr : Runs (empty capacity) calls replies c) (few : calls.countP Call.isUse < UInt64.size) :
    replies = (Recency.run capacity [] calls).1 ∧ c.capacity = capacity ∧
      Agrees c (Recency.run capacity [] calls).2 := by
  have hstart : Tracks (empty capacity : Cache κ ν) [] := ⟨[], ordered_empty capacity, rfl⟩
  have hclock : (empty capacity : Cache κ ν).clock.toNat + calls.countP Call.isUse < UInt64.size := by
    rwa [show (empty capacity : Cache κ ν).clock.toNat = 0 from rfl, Nat.zero_add]
  obtain ⟨hreplies, hlast⟩ := hstart.runs hr hclock
  exact ⟨hreplies, hr.capacity, hlast.agrees⟩

/-- The table swaps its two entries before the key put first is used again. -/
theorem runs_swapped : Runs (empty 2 : Cache Nat Nat) [.put 1 10, .put 2 20, .get 1, .put 3 30, .contains 2]
    [.done, .done, .value (some 10), .done, .flag false] ⟨2, 4, [⟨3, 30, 4⟩, ⟨1, 10, 3⟩]⟩ := by
  have hswap : Shuffled (κ := Nat) ⟨2, 2, [⟨2, 20, 2⟩, ⟨1, 10, 1⟩]⟩ ⟨2, 2, [⟨1, 10, 1⟩, ⟨2, 20, 2⟩]⟩ :=
    ⟨rfl, rfl, .swap _ _ _⟩
  refine .cons (.refl _) (.cons (.refl _) (.cons hswap (.cons (.refl _) (.cons (.refl _) (.nil (.refl _))))))

theorem agrees_runs_swapped :
    Recency.run 2 [] [.put 1 10, .put 2 20, .get 1, .put 3 30, .contains 2] =
      ([.done, .done, .value (some 10), .done, .flag false], [(3, 30), (1, 10)]) ∧
    Agrees (⟨2, 4, [⟨3, 30, 4⟩, ⟨1, 10, 3⟩]⟩ : Cache Nat Nat) [(3, 30), (1, 10)] :=
  ⟨rfl, (agrees_runs runs_swapped (by decide)).2.2⟩

end Cache
end BinAtlas
