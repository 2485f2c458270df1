import BinAtlas.Proofs.Latest
import BinAtlas.Proofs.Session.LookupKind

/-! When the host is asked. A look-up reaches the host exactly if its key is none of those of its kind
that were looked up with success last, as many as a cache has room for, since the caches were cleared.
Names and addresses of segments are keys of one kind. What reaches the host is told twice: by the
questions that were noted, and by what the host could have answered otherwise without a difference. -/

namespace BinAtlas

namespace Session

variable {σ : Type} {l : Lookups} {kind : LookupKind} {s : Session σ}

/-- Each of the four look-ups looks in its cache first. -/
theorem perform_operation (key : kind.Key) (s : Session σ) :
    perform (kind.operation key) s =
      Prod.map kind.answer id (remember kind.cache kind.keep key (kind.find key) s) := by
  cases kind <;> rfl

/-- A key that the cache has does not reach the host. -/
theorem perform_of_isSome {key : kind.Key} (h : ((kind.cache s).get key).1.isSome) :
    (perform (kind.operation key) s).2 = kind.keep s ((kind.cache s).get key).2 := by
  rw [perform_operation, remember]
  rcases hget : (kind.cache s).get key with ⟨_ | v, c⟩
  · rw [hget] at h
    cases h
  · rfl

theorem perform_of_error {key : kind.Key} (h : ¬ ((kind.cache s).get key).1.isSome) {e : Error}
    (he : kind.lookup s.host.lookups key = .error e) :
    (perform (kind.operation key) s).2 = { s with asked := kind.question key :: s.asked } := by
  rw [perform_operation, remember, LookupKind.inquires_find key s]
  rcases hget : (kind.cache s).get key with ⟨_ | v, c⟩
  · simp only [he, Prod.map_snd, id]
  · rw [hget] at h
    exact absurd rfl h

theorem perform_of_ok {key : kind.Key} (h : ¬ ((kind.cache s).get key).1.isSome) {v : kind.Value}
    (hv : kind.lookup s.host.lookups key = .ok v) :
    (perform (kind.operation key) s).2 =
      kind.keep { s with asked := kind.question key :: s.asked } ((kind.cache s).put key v) := by
  rw [perform_operation, remember, LookupKind.inquires_find key s]
  rcases hget : (kind.cache s).get key with ⟨_ | w, c⟩
  · simp only [hv, LookupKind.cache_asked, Prod.map_snd, id]
  · rw [hget] at h
    exact absurd rfl h

/-- The same session over a host with other look-ups. -/
def withLookups (s : Session σ) (m : Lookups) : Session σ := { s with host := { s.host with lookups := m } }

/-- Other look-ups would have made no difference to an operation. -/
def Indifferent (op : Operation) (s : Session σ) (m : Lookups) : Prop :=
  perform op (s.withLookups m) = ((perform op s).1, (perform op s).2.withLookups m)

theorem cache_withLookups (s : Session σ) (m : Lookups) : kind.cache (s.withLookups m) = kind.cache s := by
  cases kind <;> rfl

theorem keep_withLookups (s : Session σ) (m : Lookups) (c : Cache kind.Key kind.Value) :
    kind.keep (s.withLookups m) c = (kind.keep s c).withLookups m := by
  cases kind <;> rfl

theorem indifferent_of_isSome {key : kind.Key} (h : ((kind.cache s).get key).1.isSome) (m : Lookups) :
    Indifferent (kind.operation key) s m := by
  unfold Indifferent
  rw [perform_operation, perform_operation, remember, remember, cache_withLookups]
  rcases hget : (kind.cache s).get key with ⟨_ | v, c⟩
  · rw [hget] at h
    cases h
  · simp only [keep_withLookups, Prod.map, id]

theorem indifferent_of_reply {key : kind.Key} {m : Lookups}
    (h : kind.reply m key = kind.reply s.host.lookups key) : Indifferent (kind.operation key) s m := by
  by_cases hheld : ((kind.cache s).get key).1.isSome
  · exact indifferent_of_isSome hheld m
  have hmissing : ((kind.cache s).get key).1 = none := Option.not_isSome_iff_eq_none.1 hheld
  have hfind : kind.find key (s.withLookups m) = ((kind.find key s).1, (kind.find key s).2.withLookups m) := by
    rw [LookupKind.inquires_find key s, LookupKind.inquires_find key (s.withLookups m)]
    exact Prod.ext (LookupKind.lookup_congr h) rfl
  unfold Indifferent
  rw [perform_operation, perform_operation, remember, remember, cache_withLookups, hfind]
  rcases hget : (kind.cache s).get key with ⟨_ | v, c⟩
  · rcases kind.find key s with ⟨e | v, t⟩
    · rfl
    · simp only [cache_withLookups, keep_withLookups, Prod.map, id]
  · rw [hget] at hmissing
    cases hmissing

/-- Every cache of a session after a run holds the keys that the run and the answers of its host tell. -/
structure Recalls (l : Lookups) (capacity : Nat) (past : List Operation) (s : Session σ) : Prop where
  lookups : s.host.lookups = l
  recent : ∀ kind : LookupKind,
    (kind.cache s).Recent capacity (past.countP Operation.isLookUp) (kind.found l past)

variable {capacity : Nat} {past : List Operation}

theorem recalls_start (host : Host σ) (memory : σ) (capacity : Nat) :
    Recalls host.lookups capacity [] (start host memory capacity) where
  lookups := rfl
  recent kind := by cases kind <;> exact Cache.recent_empty capacity

theorem Recalls.cleared (h : Recalls l capacity past s) {op : Operation} (hop : op.isClear) :
    Recalls l capacity (past ++ [op]) (clearCaches s).2 := by
  refine ⟨h.lookups, fun kind => ?_⟩
  rw [LookupKind.cache_clearCaches, LookupKind.found_of_isClear hop, List.countP_append]
  exact (h.recent kind).clear.mono (Nat.le_add_right _ _)

/-- A look-up changes no cache but the one of its kind. -/
theorem Recalls.kept (h : Recalls l capacity past s) {key : kind.Key} {c : Cache kind.Key kind.Value}
    (asked : List Question) (hc : c.Recent capacity (past.countP Operation.isLookUp + 1)
      (kind.found l (past ++ [kind.operation key]))) :
    Recalls l capacity (past ++ [kind.operation key]) (kind.keep { s with asked := asked } c) := by
  have hcount : (past ++ [kind.operation key]).countP Operation.isLookUp = past.countP Operation.isLookUp + 1 := by
    simp [List.countP_append]
  constructor
  · simpa using h.lookups
  · intro other
    rw [hcount]
    by_cases hkind : kind = other
    · subst hkind
      simpa using hc
    · rw [LookupKind.cache_keep_of_ne hkind, LookupKind.cache_asked, LookupKind.found_of_key?_eq_none
        (LookupKind.isClear_operation key) (LookupKind.key?_operation_of_ne hkind key)]
      exact (h.recent other).mono (Nat.le_succ _)

/-- One look-up: what is found stays, with its key in front; what the host gives is put in front; a
failure changes nothing. -/
theorem Recalls.lookUp (h : Recalls l capacity past s) (few : past.countP Operation.isLookUp + 1 < UInt64.size)
    (key : kind.Key) : Recalls l capacity (past ++ [kind.operation key]) (perform (kind.operation key) s).2 := by
  have hrecent := h.recent kind
  by_cases hheld : ((kind.cache s).get key).1.isSome
  · have hkey := (hrecent.get_isSome_iff key).1 hheld
    obtain ⟨v, hv⟩ := LookupKind.exists_ok_of_mem_found (mem_of_mem_latest hkey)
    rw [perform_of_isSome hheld]
    apply h.kept s.asked
    rw [LookupKind.found_of_ok hv]
    exact hrecent.get few hkey
  · cases hl : kind.lookup l key with
    | error e =>
      rw [perform_of_error hheld (h.lookups.symm ▸ hl), ← LookupKind.keep_cache kind { s with asked := _ }]
      apply h.kept
      rw [LookupKind.found_of_error hl, LookupKind.cache_asked]
      exact hrecent.mono (Nat.le_succ _)
    | ok v =>
      rw [perform_of_ok hheld (h.lookups.symm ▸ hl)]
      apply h.kept
      rw [LookupKind.found_of_ok hl]
      exact hrecent.put few key v

theorem perform_of_isClear {op : Operation} (h : op.isClear) (s : Session σ) :
    (perform op s).2 = (clearCaches s).2 := by
  cases op with
  | clearCaches => rfl
  | _ => cases h

theorem Recalls.step (h : Recalls l capacity past s) {op : Operation} (hop : op.isLookUp ∨ op.isClear)
    (few : (past ++ [op]).countP Operation.isLookUp < UInt64.size) :
    Recalls l capacity (past ++ [op]) (perform op s).2 := by
  rcases hop with hlook | hclear
  · obtain ⟨kind, key, rfl⟩ := LookupKind.exists_eq_operation hlook
    apply h.lookUp
    simpa [List.countP_append, hlook] using few
  · rw [perform_of_isClear hclear]
    exact h.cleared hclear

/-- From one operation to the next, through any number of look-ups for which the clocks have words. -/
theorem Recalls.after (h : Recalls l capacity past s) {ops : List Operation}
    (hops : ∀ op ∈ ops, op.isLookUp ∨ op.isClear) (few : (past ++ ops).countP Operation.isLookUp < UInt64.size) :
    Recalls l capacity (past ++ ops) (run s ops).2 := by
  induction ops generalizing past s with
  | nil =>
    rw [List.append_nil]
    exact h
  | cons op ops ih =>
    rw [List.append_cons] at few ⊢
    have hnow : (past ++ [op]).countP Operation.isLookUp < UInt64.size :=
      Nat.lt_of_le_of_lt (List.sublist_append_left _ ops).countP_le few
    apply ih
    · exact h.step (hops op List.mem_cons_self) hnow
    · intro other hother
      exact hops other (List.mem_cons_of_mem op hother)
    · exact few

/-- The questions asked between two moments of a session. -/
def newQuestions (s t : Session σ) : List Question := t.asked.take (t.asked.length - s.asked.length)

/-- The questions that the look-ups of one key lead to during a run. -/
def questionsFor (kind : LookupKind) (key : kind.Key) (s : Session σ) : List Operation → List Question
  | [] => []
  | op :: ops =>
    let t := (perform op s).2
    let later := questionsFor kind key t ops
    if kind.key? op = some key then newQuestions s t ++ later else later

theorem Recalls.asked_of_mem (h : Recalls l capacity past s) {key : kind.Key}
    (hkey : key ∈ latest capacity (kind.found l past)) : (perform (kind.operation key) s).2.asked = s.asked := by
  have hheld := ((h.recent kind).get_isSome_iff key).2 hkey
  rw [perform_of_isSome hheld, LookupKind.asked_keep]

theorem Recalls.failed (h : Recalls l capacity past s) {key : kind.Key} {e : Error}
    (he : kind.lookup l key = .error e) :
    (perform (kind.operation key) s).2 = { s with asked := kind.question key :: s.asked } := by
  apply perform_of_error _ (h.lookups.symm ▸ he)
  rw [(h.recent kind).get_isSome_iff]
  intro hkey
  obtain ⟨v, hv⟩ := LookupKind.exists_ok_of_mem_found (mem_of_mem_latest hkey)
  rw [he] at hv
  cases hv

theorem Recalls.asked_of_not_mem (h : Recalls l capacity past s) {key : kind.Key}
    (hkey : key ∉ latest capacity (kind.found l past)) :
    (perform (kind.operation key) s).2.asked = kind.question key :: s.asked := by
  have hmissing : ¬ ((kind.cache s).get key).1.isSome := by
    rwa [(h.recent kind).get_isSome_iff]
  cases hl : kind.lookup l key with
  | error e => rw [h.failed hl]
  | ok v => rw [perform_of_ok hmissing (h.lookups.symm ▸ hl), LookupKind.asked_keep]

/-- While all keys so far have room, one that was found leads to no question. -/
theorem Recalls.newQuestions_eq (h : Recalls l capacity past s)
    (hroom : (kind.found l past).eraseDups.length ≤ capacity) (key : kind.Key) :
    newQuestions s (perform (kind.operation key) s).2 =
      if key ∈ kind.found l past then [] else [kind.question key] := by
  unfold newQuestions
  by_cases hkey : key ∈ kind.found l past
  · have hlatest := (mem_latest hroom).2 hkey
    rw [h.asked_of_mem hlatest, if_pos hkey, Nat.sub_self, List.take_zero]
  · have hlatest : key ∉ latest capacity (kind.found l past) := by
      intro hlatest
      exact hkey (mem_of_mem_latest hlatest)
    rw [h.asked_of_not_mem hlatest, if_neg hkey]
    simp

/-- While all keys to come have room, one of them leads to a question where it is looked up first. -/
theorem Recalls.questionsFor_eq (h : Recalls l capacity past s) {ops : List Operation}
    (hops : ∀ op ∈ ops, op.isLookUp) (few : (past ++ ops).countP Operation.isLookUp < UInt64.size) {key : kind.Key}
    (hkey : key ∈ kind.found l (past ++ ops)) (hroom : (kind.found l (past ++ ops)).eraseDups.length ≤ capacity) :
    questionsFor kind key s ops = if key ∈ kind.found l past then [] else [kind.question key] := by
  induction ops generalizing past s with
  | nil =>
    rw [List.append_nil] at hkey
    rw [if_pos hkey]
    rfl
  | cons op ops ih =>
    -- the keys so far are some of all
    have hearly : (kind.found l past).eraseDups.length ≤ capacity := by
      apply Nat.le_trans (eraseDups_length_mono ?_) hroom
      apply LookupKind.found_subset
      intro other hother
      exact Operation.isClear_of_isLookUp (hops other hother)
    rw [List.append_cons] at few hkey hroom
    obtain ⟨hop, hrest⟩ := List.forall_mem_cons.1 hops
    have hnow : (past ++ [op]).countP Operation.isLookUp < UInt64.size :=
      Nat.lt_of_le_of_lt (List.sublist_append_left _ ops).countP_le few
    have hlater := ih (h.step (.inl hop) hnow) hrest few hkey hroom
    have hmem : key ∈ kind.found l (past ++ [op]) ↔
        kind.key? op = some key ∧ (∃ v, kind.lookup l key = .ok v) ∨ key ∈ kind.found l past :=
      LookupKind.mem_found_concat (Operation.isClear_of_isLookUp hop)
    rw [questionsFor, hlater]
    by_cases hown : kind.key? op = some key
    · obtain rfl := LookupKind.eq_operation hown
      have hnext := hmem.2 (.inl ⟨hown, LookupKind.exists_ok_of_mem_found hkey⟩)
      rw [if_pos hown, if_pos hnext, List.append_nil]
      exact h.newQuestions_eq hearly key
    · have hsame : key ∈ kind.found l (past ++ [op]) ↔ key ∈ kind.found l past := by
        simp only [hmem, hown, false_and, false_or]
      rw [if_neg hown]
      simp only [hsame]

/-- A run up to a moment at which nothing is remembered, its start or a clear. -/
def Fresh (before : List Operation) : Prop := before = [] ∨ ∃ earlier, before = earlier ++ [.clearCaches]

theorem Fresh.found {before : List Operation} (h : Fresh before) : kind.found l before = [] := by
  rcases h with rfl | ⟨earlier, rfl⟩
  · rfl
  · exact LookupKind.found_of_isClear rfl earlier

/-- When the next look-up of a session reaches the host: not if its key is one of those found last, and
by the one question for it if not. A failure has asked, and leaves all else as it was. Whatever else the
host could answer makes no difference: for such a key nothing of it does, for any key nothing but the one
primitive. -/
structure AsksAsNeeded (l : Lookups) (capacity : Nat) (past : List Operation) (s : Session σ) : Prop where
  answer : ∀ (kind : LookupKind) (key : kind.Key),
    (perform (kind.operation key) s).1 = kind.answer (kind.lookup l key)
  held : ∀ (kind : LookupKind) (key : kind.Key), key ∈ latest capacity (kind.found l past) →
    (perform (kind.operation key) s).2.asked = s.asked
  missing : ∀ (kind : LookupKind) (key : kind.Key), key ∉ latest capacity (kind.found l past) →
    (perform (kind.operation key) s).2.asked = kind.question key :: s.asked
  failed : ∀ (kind : LookupKind) (key : kind.Key) (e : Error), kind.lookup l key = .error e →
    (perform (kind.operation key) s).2 = { s with asked := kind.question key :: s.asked }
  alone : ∀ (kind : LookupKind) (key : kind.Key), key ∈ latest capacity (kind.found l past) →
    ∀ m, Indifferent (kind.operation key) s m
  primitive : ∀ (kind : LookupKind) (key : kind.Key) (m : Lookups), kind.reply m key = kind.reply l key →
    Indifferent (kind.operation key) s m

theorem LooksUp.answer (h : LooksUp l s) (key : kind.Key) :
    (perform (kind.operation key) s).1 = kind.answer (kind.lookup l key) := by
  cases kind with
  | virtualAddress => exact h.virtualAddress_eq key
  | fileOffset => exact h.fileOffset_eq key
  | signature => exact h.signature_eq key
  | segment => exact h.segment_eq key

/-- Through every run of look-ups and clears for which the clocks of the caches have words, the host is
asked as needed. So a key that is found between clears leads to one question there, if the cache has room
for all keys of its kind that are found. -/
theorem asksAsNeeded_run (host : Host σ) (memory : σ) (capacity : Nat) {ops : List Operation}
    (hops : ∀ op ∈ ops, op.isLookUp ∨ op.isClear) (few : ops.countP Operation.isLookUp < UInt64.size) :
    AsksAsNeeded host.lookups capacity ops (run (start host memory capacity) ops).2 ∧
    ∀ before stretch, ops = before ++ stretch → Fresh before → (∀ op ∈ stretch, op.isLookUp) →
      ∀ kind : LookupKind, (kind.found host.lookups stretch).eraseDups.length ≤ capacity →
        ∀ key ∈ kind.found host.lookups stretch,
          questionsFor kind key (run (start host memory capacity) before).2 stretch = [kind.question key] := by
  have hstart := recalls_start host memory capacity
  have hrecalls := hstart.after hops few
  constructor
  · constructor
    case answer => exact fun kind key => (looksUp_run host memory capacity ops).answer key
    case held => exact fun kind key hkey => hrecalls.asked_of_mem hkey
    case missing => exact fun kind key hkey => hrecalls.asked_of_not_mem hkey
    case failed => exact fun kind key e he => hrecalls.failed he
    case alone =>
      intro kind key hkey m
      exact indifferent_of_isSome (((hrecalls.recent kind).get_isSome_iff key).2 hkey) m
    case primitive =>
      intro kind key m hreply
      apply indifferent_of_reply
      rwa [hrecalls.lookups]
  · rintro before stretch rfl hfresh hstretch kind hroom key hkey
    have hbefore : Recalls host.lookups capacity before (run (start host memory capacity) before).2 := by
      apply hstart.after
      · intro op hop
        exact hops op (List.mem_append_left stretch hop)
      · exact Nat.lt_of_le_of_lt (List.sublist_append_left before stretch).countP_le few
    rw [← LookupKind.found_append hfresh.found stretch] at hroom hkey
    rw [hbefore.questionsFor_eq hstretch few hkey hroom, hfresh.found, if_neg List.not_mem_nil]

/-- One segment. -/
def oneSegment : Snapshot := { segments := [⟨".text", 0x1000, 0x2000, none, "rx"⟩] }

/-- The name of the segment and an address in it take the room from each other; a name that there is none
of takes none. -/
def contended : List Operation :=
  [.getSegment (.name ".text"), .getSegment (.address 0x1800), .getSegment (.name ".text"), .clearCaches]

def uncontended : List Operation :=
  [.getSegment (.name ".text"), .getSegment (.name ".data"), .getSegment (.name ".text"), .getFileOffset 0x1000]

theorem asksAsNeeded_run_oneSegment :
    AsksAsNeeded oneSegment.host.lookups 1 (contended ++ uncontended)
      (run (start oneSegment.host [] 1) (contended ++ uncontended)).2 ∧
    questionsFor .segment (.name ".text") (run (start oneSegment.host [] 1) contended).2 uncontended =
      [.segmentNamed] := by
  have hops : ∀ op ∈ contended ++ uncontended, op.isLookUp ∨ op.isClear := by
    simp [contended, uncontended, Operation.isLookUp, Operation.isClear]
  obtain ⟨hasks, honce⟩ := asksAsNeeded_run oneSegment.host [] 1 hops (by decide)
  have hfresh : Fresh contended := .inr ⟨contended.dropLast, rfl⟩
  have hlook : ∀ op ∈ uncontended, op.isLookUp := by
    simp [uncontended, Operation.isLookUp]
  have hfound : LookupKind.segment.found oneSegment.host.lookups uncontended =
      [SegmentKey.name ".text", SegmentKey.name ".text"] := rfl
  refine ⟨hasks, honce contended uncontended rfl hfresh hlook .segment (by decide) _ ?_⟩
  rw [hfound]
  exact List.mem_cons_self

end Session
end BinAtlas
