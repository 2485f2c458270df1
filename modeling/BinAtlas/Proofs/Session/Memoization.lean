import BinAtlas.Host.Stored
import BinAtlas.Proofs.Recency
import BinAtlas.Proofs.Session.Windows
import Mathlib.Data.List.Forall2

/-! The caches of a session do not show. Every entry is what the host answers for its key, so a
look-up gives that answer whether it was remembered or not. Two sessions over one host, however much
their caches hold and whenever they are cleared, then answer alike, operation by operation. -/

namespace BinAtlas

namespace Cache

variable {κ ν : Type}

/-- Every entry is what the function gives for its key. -/
def Remembers (c : Cache κ ν) (f : κ → Except Error ν) : Prop := ∀ e ∈ c.entries, f e.key = .ok e.value

theorem remembers_empty (capacity : Nat) (f : κ → Except Error ν) : (empty capacity).Remembers f := nofun

theorem remembers_clear (c : Cache κ ν) (f : κ → Except Error ν) : c.clear.Remembers f := nofun

variable [DecidableEq κ] {c : Cache κ ν} {f : κ → Except Error ν}

theorem Remembers.get_value (h : c.Remembers f) {k : κ} {v : ν} (hv : (c.get k).1 = some v) : f k = .ok v := by
  unfold get at hv
  split at hv
  next => cases hv
  next e hf =>
    cases hv
    have hkey := List.find?_some hf
    obtain rfl : e.key = k := eq_of_beq hkey
    exact h e (List.mem_of_find?_eq_some hf)

theorem Remembers.get (h : c.Remembers f) (k : κ) : (c.get k).2.Remembers f := by
  unfold Cache.get
  split
  next => exact h
  next e hf =>
    refine List.forall_mem_cons.2 ⟨h e (List.mem_of_find?_eq_some hf), fun e he => ?_⟩
    exact h e (mem_without.1 he).1

theorem dropOldest_subset (es : List (Entry κ ν)) : dropOldest es ⊆ es := by
  unfold dropOldest
  split
  next => exact List.Subset.refl es
  next e _ => exact fun _ he => (mem_without.1 he).1

/-- Whatever is evicted, the entries that stay were there before. -/
theorem Remembers.put (h : c.Remembers f) {k : κ} {v : ν} (hv : f k = .ok v) : (c.put k v).Remembers f := by
  unfold Cache.put
  split_ifs
  · exact h
  · exact List.forall_mem_cons.2 ⟨hv, fun e he => h e (mem_without.1 he).1⟩
  · exact List.forall_mem_cons.2 ⟨hv, fun e he => h e (dropOldest_subset _ he)⟩
  · exact List.forall_mem_cons.2 ⟨hv, h⟩

end Cache

/-- Whether the operation does no more than forget. -/
def Operation.isClear : Operation → Bool
  | .clearCaches => true
  | _ => false

namespace Session

variable {σ α β γ δ κ ν : Type}

/-- The caches of a session hold answers of its host, and as many as it was started with. -/
structure Faithful (capacity : Nat) (s : Session σ) : Prop where
  virtualAddresses : s.virtualAddresses.Remembers s.host.lookups.virtualAddress
  fileOffsets : s.fileOffsets.Remembers s.host.lookups.fileOffset
  signatures : s.signatures.Remembers s.host.lookups.functionSignature
  segments : s.segments.Remembers s.host.lookups.segment
  capacity_eq : s.capacity = capacity

/-- Sessions that differ at most in what they remember and in what they had to ask for. -/
structure Same (s t : Session σ) : Prop where
  held : Held s t
  bitSize : t.bitSize = s.bitSize
  bigEndian : t.bigEndian = s.bigEndian
  processor : t.processor = s.processor

theorem Same.symm {s t : Session σ} (h : Same s t) : Same t s :=
  ⟨⟨h.held.host.symm, h.held.memory.symm, h.held.windows.symm⟩, h.bitSize.symm, h.bigEndian.symm, h.processor.symm⟩

theorem Same.trans {s t u : Session σ} (h1 : Same s t) (h2 : Same t u) : Same s u :=
  ⟨h1.held.trans h2.held, h2.bitSize.trans h1.bitSize, h2.bigEndian.trans h1.bigEndian, h2.processor.trans h1.processor⟩

variable {c c' : Nat}

theorem faithful_start (host : Host σ) (memory : σ) (capacity : Nat) :
    Faithful capacity (start host memory capacity) where
  virtualAddresses := Cache.remembers_empty capacity _
  fileOffsets := Cache.remembers_empty capacity _
  signatures := Cache.remembers_empty capacity _
  segments := Cache.remembers_empty capacity _
  capacity_eq := rfl

theorem Faithful.clearCaches {s : Session σ} (h : Faithful c s) : Faithful c (clearCaches s).2 where
  virtualAddresses := s.virtualAddresses.remembers_clear _
  fileOffsets := s.fileOffsets.remembers_clear _
  signatures := s.signatures.remembers_clear _
  segments := s.segments.remembers_clear _
  capacity_eq := h.capacity_eq

/-- An action that gives what the host looks up, and changes no more than what is remembered. -/
def Direct (x : Action σ α) (answer : Lookups → α) : Prop :=
  ∀ c s, Faithful c s → (x s).1 = answer s.host.lookups ∧ Same s (x s).2 ∧ Faithful c (x s).2

theorem Inquires.direct {x : Action σ α} {q : Question} {answer : Lookups → α} (h : Inquires x q answer) :
    Direct x answer := by
  intro c s hs
  rw [h s]
  exact ⟨rfl, ⟨⟨rfl, rfl, rfl⟩, rfl, rfl, rfl⟩, { hs with }⟩

theorem direct_remember [DecidableEq κ] {cache : Session σ → Cache κ ν} {keep : Session σ → Cache κ ν → Session σ}
    {f : Lookups → κ → Except Error ν} (holds : ∀ c s, Faithful c s → (cache s).Remembers (f s.host.lookups))
    (keeps : ∀ c s d, Faithful c s → d.Remembers (f s.host.lookups) → d.capacity = (cache s).capacity →
      Same s (keep s d) ∧ Faithful c (keep s d)) {key : κ} {compute : Action σ (Except Error ν)}
    (hcompute : Direct compute (f · key)) : Direct (remember cache keep key compute) (f · key) := by
  intro c s h
  unfold remember
  cases hg : (cache s).get key with
  | mk found d =>
    cases found with
    | some v =>
      have hmem := (holds c s h).get key
      have hcap := (cache s).capacity_get key
      rw [hg] at hmem hcap
      have hv : f s.host.lookups key = .ok v := (holds c s h).get_value (by rw [hg])
      exact ⟨hv.symm, keeps c s d h hmem hcap⟩
    | none =>
      obtain ⟨hanswer, hsame, hafter⟩ := hcompute c s h
      have hhost := hsame.held.host
      dsimp only
      generalize compute s = r at hanswer hsame hafter hhost
      obtain ⟨e | v, t⟩ := r
      · exact ⟨hanswer, hsame, hafter⟩
      · have hv : f t.host.lookups key = .ok v := (congrArg (f ·.lookups key) hhost).trans hanswer.symm
        obtain ⟨hkept, hfaithful⟩ := keeps c t _ hafter ((holds c t hafter).put hv) (Cache.capacity_put _ key v)
        exact ⟨hanswer, hsame.trans hkept, hfaithful⟩

theorem direct_getVirtualAddress (o : UInt64) : Direct (getVirtualAddress o : Action σ _) (·.virtualAddress o) := by
  refine direct_remember (f := Lookups.virtualAddress) (fun c s h => h.virtualAddresses) (fun c s d h hd hcap => ?_)
    (inquires_findAddress o).direct
  exact ⟨⟨⟨rfl, rfl, rfl⟩, rfl, rfl, rfl⟩, { h with virtualAddresses := hd }⟩

theorem direct_getFileOffset (a : Address) : Direct (getFileOffset a : Action σ _) (·.fileOffset a) := by
  refine direct_remember (f := Lookups.fileOffset) (fun c s h => h.fileOffsets) (fun c s d h hd hcap => ?_)
    (inquires_findOffset a).direct
  exact ⟨⟨⟨rfl, rfl, rfl⟩, rfl, rfl, rfl⟩, { h with fileOffsets := hd, capacity_eq := hcap.trans h.capacity_eq }⟩

theorem direct_getSignature (a : Address) : Direct (getSignature a : Action σ _) (·.functionSignature a) := by
  refine direct_remember (f := Lookups.functionSignature) (fun c s h => h.signatures) (fun c s d h hd hcap => ?_)
    (inquires_findSignature a).direct
  exact ⟨⟨⟨rfl, rfl, rfl⟩, rfl, rfl, rfl⟩, { h with signatures := hd }⟩

theorem direct_getSegment (key : SegmentKey) : Direct (getSegment key : Action σ _) (·.segment key) := by
  refine direct_remember (f := Lookups.segment) (fun c s h => h.segments) (fun c s d h hd hcap => ?_)
    (inquires_findSegment key).direct
  exact ⟨⟨⟨rfl, rfl, rfl⟩, rfl, rfl, rfl⟩, { h with segments := hd }⟩

/-- Two such sessions whose caches hold `c` and `c'` entries each. -/
structure Alike (c c' : Nat) (s t : Session σ) : Prop where
  same : Same s t
  left : Faithful c s
  right : Faithful c' t

theorem Alike.view {s t : Session σ} (h : Alike c c' s t) : s.view = t.view := h.same.held.view.symm

/-- Actions on two such sessions that give related results and leave two such sessions. -/
def Matches (c c' : Nat) (R : α → β → Prop) (x : Action σ α) (y : Action σ β) : Prop :=
  ∀ s t, Alike c c' s t → R (x s).1 (y t).1 ∧ Alike c c' (x s).2 (y t).2

/-- An action whose result is the same in both. -/
abbrev Blind (c c' : Nat) (x : Action σ α) : Prop := Matches c c' Eq x x

theorem Direct.blind {x : Action σ α} {answer : Lookups → α} (h : Direct x answer) : Blind c c' x := by
  intro s t hst
  obtain ⟨ha, hsame, hleft⟩ := h c s hst.left
  obtain ⟨hb, hsame', hright⟩ := h c' t hst.right
  refine ⟨?_, hsame.symm.trans (hst.same.trans hsame'), hleft, hright⟩
  rw [ha, hb, hst.same.held.host]

theorem matches_pure {R : α → β → Prop} {a : α} {b : β} (h : R a b) :
    Matches c c' R (pure a : Action σ α) (pure b) := fun _ _ hst => ⟨h, hst⟩

theorem matches_bind {R : α → β → Prop} {S : γ → δ → Prop} {x : Action σ α} {y : Action σ β} {f : α → Action σ γ}
    {g : β → Action σ δ} (hxy : Matches c c' R x y) (hfg : ∀ a b, R a b → Matches c c' S (f a) (g b)) :
    Matches c c' S (x >>= f) (y >>= g) := by
  intro s t h
  obtain ⟨hr, hnext⟩ := hxy s t h
  exact hfg _ _ hr _ _ hnext

theorem matches_get : Matches c c' (Alike c c') (get : Action σ (Session σ)) get := fun _ _ h => ⟨h, h⟩

theorem Blind.bind {S : γ → δ → Prop} {x : Action σ α} {f : α → Action σ γ} {g : α → Action σ δ} (hx : Blind c c' x)
    (hfg : ∀ a, Matches c c' S (f a) (g a)) : Matches c c' S (x >>= f) (x >>= g) := by
  refine matches_bind hx fun a b hab => ?_
  rw [← hab]
  exact hfg a

theorem blind_pure (a : α) : Blind c c' (pure a : Action σ α) := matches_pure rfl

theorem blind_look (answer : View → α) : Blind c c' (look answer : Action σ α) :=
  fun _ _ h => ⟨congrArg answer h.view, h⟩

theorem blind_ask (q : Question) (answer : View → α) : Blind c c' (ask q fun s => answer s.view : Action σ α) := by
  intro s t h
  exact ⟨congrArg answer h.view, { h.same with held := { h.same.held with } }, { h.left with }, { h.right with }⟩

theorem blind_modify {f : Session σ → Session σ} (hf : ∀ s t, Alike c c' s t → Alike c c' (f s) (f t)) :
    Blind c c' (modify f : Action σ PUnit) := fun s t h => ⟨rfl, hf s t h⟩

theorem blind_once {known : Session σ → Option α} {keep : Session σ → α → Session σ} {compute : Action σ α}
    (hknown : ∀ s t, Same s t → known t = known s)
    (hkeep : ∀ s t a, Alike c c' s t → Alike c c' (keep s a) (keep t a)) (hc : Blind c c' compute) :
    Blind c c' (once known keep compute) := by
  refine matches_bind matches_get fun s t h => ?_
  rw [hknown s t h.same]
  cases known s with
  | some a => exact blind_pure a
  | none => exact hc.bind fun a => (blind_modify fun s t => hkeep s t a).bind fun _ => blind_pure a

theorem blind_askBitSize : Blind c c' (askBitSize : Action σ _) := by
  refine Blind.bind (blind_ask _ _) fun version => ?_
  split_ifs
  · exact blind_ask _ _
  refine Blind.bind (blind_ask _ _) fun is64 => ?_
  split_ifs
  · exact blind_pure _
  refine Blind.bind (blind_ask _ _) fun is32 => ?_
  split_ifs <;> exact blind_pure _

theorem blind_getBitSize : Blind c c' (getBitSize : Action σ _) := by
  refine blind_once (fun s t h => h.bitSize) (fun s t a h => ?_) blind_askBitSize
  exact ⟨{ h.same with held := { h.same.held with }, bitSize := rfl }, { h.left with }, { h.right with }⟩

theorem blind_getBigEndian : Blind c c' (getBigEndian : Action σ _) := by
  refine blind_once (fun s t h => h.bigEndian) (fun s t a h => ?_) (blind_ask _ _)
  exact ⟨{ h.same with held := { h.same.held with }, bigEndian := rfl }, { h.left with }, { h.right with }⟩

theorem blind_getProcessor : Blind c c' (getProcessor : Action σ _) := by
  refine blind_once (fun s t h => h.processor) (fun s t a h => ?_) ((blind_ask _ _).bind fun _ => blind_pure _)
  exact ⟨{ h.same with held := { h.same.held with }, processor := rfl }, { h.left with }, { h.right with }⟩

theorem Alike.clearCaches_left {s t : Session σ} (h : Alike c c' s t) : Alike c c' (clearCaches s).2 t :=
  ⟨{ h.same with held := { h.same.held with } }, h.left.clearCaches, h.right⟩

theorem Alike.clearCaches_right {s t : Session σ} (h : Alike c c' s t) : Alike c c' s (clearCaches t).2 :=
  ⟨{ h.same with held := { h.same.held with } }, h.left, h.right.clearCaches⟩

theorem blind_clearCaches : Blind c c' (clearCaches : Action σ Unit) :=
  fun _ _ h => ⟨rfl, h.clearCaches_left.clearCaches_right⟩

theorem blind_setWindow (id : String) (w : Window) : Blind c c' (setWindow id w : Action σ Unit) := by
  refine blind_modify fun s t h => ?_
  have hwindows : t.windows = s.windows := h.same.held.windows
  refine ⟨{ h.same with held := { h.same.held with windows := ?_ } }, { h.left with }, { h.right with }⟩
  rw [hwindows]

theorem blind_getSegmentBy (key : Json) : Blind c c' (getSegmentBy key : Action σ _) := by
  unfold getSegmentBy
  cases SegmentKey.ofJson key with
  | ok key => exact (direct_getSegment key).blind
  | error e => exact blind_pure _

/-- What is stored depends on the host and its memory alone. -/
theorem blind_store (f : Host σ → σ → α × σ) :
    Blind c c' (fun s => ((f s.host s.memory).1, { s with memory := (f s.host s.memory).2 }) : Action σ α) := by
  intro s t h
  have hf : f t.host t.memory = f s.host s.memory := by rw [h.same.held.host, h.same.held.memory]
  dsimp only
  rw [hf]
  exact ⟨rfl, { h.same with held := { h.same.held with memory := rfl } }, { h.left with }, { h.right with }⟩

theorem blind_writeBytes (a : Address) (data : List UInt8) : Blind c c' (writeBytes a data : Action σ _) := by
  refine Blind.bind (blind_store fun h m => h.patch m a data) fun done => ?_
  split_ifs <;> exact blind_pure _

theorem blind_stepWindow (w : Window) (step : WindowStep) : Blind c c' (stepWindow w step : Action σ _) := by
  cases step with
  | state | flush | seek target => exact blind_pure _
  | read n | readExact n | readToEnd =>
    refine matches_bind matches_get fun s t h => ?_
    rw [h.view]
    exact blind_pure _
  | write data =>
    exact blind_store fun h m =>
      ((WindowAnswer.written (w.write h m data).1, (w.write h m data).2.1), (w.write h m data).2.2)
  | writeAll data =>
    exact blind_store fun h m =>
      ((WindowAnswer.done (w.writeAll h m data).1, (w.writeAll h m data).2.1), (w.writeAll h m data).2.2)

theorem Alike.window?_eq {s t : Session σ} (h : Alike c c' s t) (id : String) : s.window? id = t.window? id := by
  unfold window?
  rw [h.same.held.windows]

theorem blind_onWindow (id : String) (step : WindowStep) : Blind c c' (onWindow id step : Action σ _) := by
  refine matches_bind matches_get fun s t h => ?_
  rw [h.window?_eq]
  cases t.window? id with
  | none => exact blind_pure _
  | some w => exact (blind_stepWindow w step).bind fun r => (blind_setWindow id r.2).bind fun _ => blind_pure _

theorem blind_openWindow (id : String) (start stop : Address) : Blind c c' (openWindow id start stop : Action σ _) := by
  unfold openWindow
  cases Window.openOn start stop with
  | error e => exact blind_pure _
  | ok w => exact (blind_setWindow id w).bind fun _ => blind_pure _

theorem blind_copyWindow (id target : String) : Blind c c' (copyWindow id target : Action σ _) := by
  refine matches_bind matches_get fun s t h => ?_
  rw [h.window?_eq]
  cases t.window? id with
  | none => exact blind_pure _
  | some w => exact (blind_setWindow target w).bind fun _ => blind_pure _

/-- The same answer of two sessions whose caches hold `c` and `c'` entries. The capacity shows only where
a session is asked for its own. -/
inductive SameAnswer (c c' : Nat) : Answer → Answer → Prop
  | same (a : Answer) : SameAnswer c c' a a
  | info (i : Info) : SameAnswer c c' (.info { i with capacity := c }) (.info { i with capacity := c' })
  | described {τ : Type} {s t : Session τ} (name : s.view.name = t.view.name) (left : s.capacity = c)
      (right : t.capacity = c') : SameAnswer c c' (.text s.description) (.text t.description)

/-- Equal capacities leave nothing to tell the answers apart. -/
theorem SameAnswer.eq {c : Nat} {a b : Answer} (h : SameAnswer c c a b) : a = b := by
  cases h with
  | same a => rfl
  | info i => rfl
  | described name left right =>
    unfold description
    rw [name, left, right]

theorem Matches.answer {x : Action σ Answer} (h : Blind c c' x) : Matches c c' (SameAnswer c c') x x := by
  intro s t hst
  obtain ⟨heq, hnext⟩ := h s t hst
  rw [heq]
  exact ⟨.same _, hnext⟩

theorem matches_getInfo :
    Matches c c' (fun i j => ∃ k : Info, i = { k with capacity := c } ∧ j = { k with capacity := c' })
      (getInfo : Action σ Info) getInfo := by
  refine Blind.bind blind_getBitSize fun bits => ?_
  refine Blind.bind blind_getBigEndian fun big => ?_
  refine Blind.bind (blind_look _) fun first => ?_
  refine Blind.bind (blind_look _) fun last => ?_
  refine Blind.bind blind_getProcessor fun name => ?_
  refine matches_bind matches_get fun s t h => matches_pure ?_
  refine ⟨⟨bits, big, first, last, name, 0⟩, ?_, ?_⟩
  · rw [h.left.capacity_eq]
  · rw [h.right.capacity_eq]

/-- Every operation gives the same answer in both sessions, and leaves them such sessions. -/
theorem matches_perform (op : Operation) :
    Matches c c' (SameAnswer c c') (perform op : Action σ Answer) (perform op) := by
  cases op with
  | info =>
    refine matches_bind matches_getInfo fun i j hij => matches_pure ?_
    obtain ⟨k, rfl, rfl⟩ := hij
    exact .info k
  | describe =>
    refine matches_bind matches_get fun s t h => matches_pure ?_
    exact .described (congrArg View.name h.view) h.left.capacity_eq h.right.capacity_eq
  | clearCaches => exact .answer (blind_clearCaches.bind fun _ => blind_pure _)
  | writeBytes a data => exact .answer ((blind_writeBytes a data).bind fun _ => blind_pure _)
  | getVirtualAddress o => exact .answer ((direct_getVirtualAddress o).blind.bind fun _ => blind_pure _)
  | getFileOffset a => exact .answer ((direct_getFileOffset a).blind.bind fun _ => blind_pure _)
  | getSignature a => exact .answer ((direct_getSignature a).blind.bind fun _ => blind_pure _)
  | getSegment key => exact .answer ((direct_getSegment key).blind.bind fun _ => blind_pure _)
  | getSegmentBy key => exact .answer ((blind_getSegmentBy key).bind fun _ => blind_pure _)
  | functionSignature a =>
    refine .answer (matches_bind matches_get fun s t h => ?_)
    rw [h.view]
    cases t.view.getFunction a with
    | error e => exact blind_pure _
    | ok f => exact (direct_getSignature f.start).blind.bind fun _ => blind_pure _
  | segmentsEqual key other =>
    exact .answer ((blind_getSegmentBy other).bind fun _ => (blind_getSegmentBy key).bind fun _ => blind_pure _)
  | segmentData key => exact .answer ((blind_getSegmentBy key).bind fun _ => blind_look _)
  | segmentFunctions key => exact .answer ((blind_getSegmentBy key).bind fun _ => blind_look _)
  | segmentContains key as => exact .answer ((blind_getSegmentBy key).bind fun _ => blind_pure _)
  | openWindow id start stop => exact .answer (blind_openWindow id start stop)
  | copyWindow id target => exact .answer (blind_copyWindow id target)
  | onWindow id step => exact .answer (blind_onWindow id step)
  | _ => exact .answer (blind_look _)

theorem Alike.run {s t : Session σ} (h : Alike c c' s t) (ops : List Operation) :
    Alike c c' (run s ops).2 (run t ops).2 := by
  induction ops generalizing s t with
  | nil => exact h
  | cons op ops ih => exact ih (matches_perform op s t h).2

theorem alike_start (host : Host σ) (memory : σ) (c c' : Nat) :
    Alike c c' (start host memory c) (start host memory c') :=
  ⟨⟨⟨rfl, rfl, rfl⟩, rfl, rfl, rfl⟩, faithful_start host memory c, faithful_start host memory c'⟩

/-- The four look-ups answer what the host does when it is asked directly, and its sign for nothing is
an error that names what was looked up. -/
structure LooksUp (l : Lookups) (s : Session σ) : Prop where
  virtualAddress : ∀ o, l.addressOfOffset o ≠ Address.bad →
    (perform (.getVirtualAddress o) s).1 = .word (.ok (l.addressOfOffset o))
  virtualAddress_bad : ∀ o, l.addressOfOffset o = Address.bad →
    (perform (.getVirtualAddress o) s).1 = .word (.error (.notFound (.virtualAddress o)))
  fileOffset : ∀ a, 0 ≤ l.offsetOfAddress a →
    (perform (.getFileOffset a) s).1 = .word (.ok (l.offsetOfAddress a).toNat.toUInt64)
  fileOffset_negative : ∀ a, l.offsetOfAddress a < 0 →
    (perform (.getFileOffset a) s).1 = .word (.error (.notFound (.fileOffset a)))
  signature : ∀ a g, l.signature a = some g → (perform (.getSignature a) s).1 = .signature (.ok g)
  signature_none : ∀ a, l.signature a = none →
    (perform (.getSignature a) s).1 = .signature (.error (.notFound (.signature a)))
  segmentNamed : ∀ n g, l.segmentNamed n = some g → (perform (.getSegment (.name n)) s).1 = .segment (.ok g)
  segmentNamed_none : ∀ n, l.segmentNamed n = none →
    (perform (.getSegment (.name n)) s).1 = .segment (.error (.notFound (.segmentNamed n)))
  segmentAt : ∀ a g, l.segmentAt a = some g → (perform (.getSegment (.address a)) s).1 = .segment (.ok g)
  segmentAt_none : ∀ a, l.segmentAt a = none →
    (perform (.getSegment (.address a)) s).1 = .segment (.error (.notFound (.segmentAt a)))

theorem Faithful.looksUp {s : Session σ} (h : Faithful c s) : LooksUp s.host.lookups s := by
  have haddress : ∀ o, (perform (.getVirtualAddress o) s).1 = .word (s.host.lookups.virtualAddress o) :=
    fun o => congrArg Answer.word (direct_getVirtualAddress o c s h).1
  have hoffset : ∀ a, (perform (.getFileOffset a) s).1 = .word (s.host.lookups.fileOffset a) :=
    fun a => congrArg Answer.word (direct_getFileOffset a c s h).1
  have hsignature : ∀ a, (perform (.getSignature a) s).1 = .signature (s.host.lookups.functionSignature a) :=
    fun a => congrArg Answer.signature (direct_getSignature a c s h).1
  have hsegment : ∀ key, (perform (.getSegment key) s).1 = .segment (s.host.lookups.segment key) :=
    fun key => congrArg Answer.segment (direct_getSegment key c s h).1
  constructor
  case virtualAddress => exact fun o ho => by rw [haddress, Lookups.virtualAddress, if_neg ho]
  case virtualAddress_bad => exact fun o ho => by rw [haddress, Lookups.virtualAddress, if_pos ho]
  case fileOffset => exact fun a ha => by rw [hoffset, Lookups.fileOffset, if_neg (Int.not_lt.2 ha)]
  case fileOffset_negative => exact fun a ha => by rw [hoffset, Lookups.fileOffset, if_pos ha]
  case signature => exact fun a g hg => by rw [hsignature, Lookups.functionSignature, hg]
  case signature_none => exact fun a hg => by rw [hsignature, Lookups.functionSignature, hg]
  case segmentNamed => exact fun n g hg => by rw [hsegment, Lookups.segment, hg]
  case segmentNamed_none => exact fun n hg => by rw [hsegment, Lookups.segment, hg]
  case segmentAt => exact fun a g hg => by rw [hsegment, Lookups.segment, hg]
  case segmentAt_none => exact fun a hg => by rw [hsegment, Lookups.segment, hg]

namespace LooksUp

variable {l : Lookups} {s : Session σ}

theorem virtualAddress_eq (h : LooksUp l s) (o : UInt64) :
    (perform (.getVirtualAddress o) s).1 = .word (l.virtualAddress o) := by
  unfold Lookups.virtualAddress
  by_cases ho : l.addressOfOffset o = Address.bad
  · simpa [ho] using h.virtualAddress_bad o ho
  · simpa [ho] using h.virtualAddress o ho

theorem fileOffset_eq (h : LooksUp l s) (a : Address) :
    (perform (.getFileOffset a) s).1 = .word (l.fileOffset a) := by
  unfold Lookups.fileOffset
  by_cases ha : l.offsetOfAddress a < 0
  · simpa [ha] using h.fileOffset_negative a ha
  · simpa [ha] using h.fileOffset a (Int.not_lt.1 ha)

theorem signature_eq (h : LooksUp l s) (a : Address) :
    (perform (.getSignature a) s).1 = .signature (l.functionSignature a) := by
  unfold Lookups.functionSignature
  cases hg : l.signature a with
  | none => exact h.signature_none a hg
  | some g => exact h.signature a g hg

theorem segment_eq (h : LooksUp l s) (key : SegmentKey) :
    (perform (.getSegment key) s).1 = .segment (l.segment key) := by
  cases key with
  | name n =>
    cases hg : l.segmentNamed n with
    | none => simpa [Lookups.segment, hg] using h.segmentNamed_none n hg
    | some g => simpa [Lookups.segment, hg] using h.segmentNamed n g hg
  | address a =>
    cases hg : l.segmentAt a with
    | none => simpa [Lookups.segment, hg] using h.segmentAt_none a hg
    | some g => simpa [Lookups.segment, hg] using h.segmentAt a g hg

end LooksUp

theorem looksUp_run (host : Host σ) (memory : σ) (capacity : Nat) (ops : List Operation) :
    LooksUp host.lookups (run (start host memory capacity) ops).2 := by
  have hfaithful := ((alike_start host memory capacity capacity).run ops).left
  have hhost : (run (start host memory capacity) ops).2.host = host := host_run _ ops
  rw [← congrArg Host.lookups hhost]
  exact hfaithful.looksUp

/-- The operations that do more than clear the caches. -/
def withoutClears (ops : List Operation) : List Operation := ops.filter fun op => !op.isClear

theorem withoutClears_cons_of_isClear {op : Operation} (h : op.isClear) (ops : List Operation) :
    withoutClears (op :: ops) = withoutClears ops :=
  List.filter_cons_of_neg (by simpa using h)

theorem withoutClears_cons {op : Operation} (h : ¬ op.isClear) (ops : List Operation) :
    withoutClears (op :: ops) = op :: withoutClears ops :=
  List.filter_cons_of_pos (by simpa using h)

/-- The operations of a run with their answers, but for those that clear the caches. -/
def transcript (s : Session σ) (ops : List Operation) : List (Operation × Answer) :=
  (ops.zip (run s ops).1).filter fun p => !p.1.isClear

theorem transcript_cons_of_isClear {op : Operation} (h : op.isClear) (s : Session σ) (ops : List Operation) :
    transcript s (op :: ops) = transcript (clearCaches s).2 ops := by
  cases op with
  | clearCaches => rfl
  | _ => cases h

theorem transcript_cons {op : Operation} (h : ¬ op.isClear) (s : Session σ) (ops : List Operation) :
    transcript s (op :: ops) = (op, (perform op s).1) :: transcript (perform op s).2 ops := by
  have hkeep : (!op.isClear) = true := by simpa using h
  exact List.filter_cons_of_pos hkeep

/-- Clears may stand anywhere in either run. -/
theorem Alike.transcript {s t : Session σ} (h : Alike c c' s t) {ops ops' : List Operation}
    (hops : withoutClears ops = withoutClears ops') :
    List.Forall₂ (fun p q => p.1 = q.1 ∧ SameAnswer c c' p.2 q.2) (transcript s ops) (transcript t ops') := by
  induction ops generalizing s t ops' with
  | nil =>
    induction ops' generalizing t with
    | nil => exact .nil
    | cons op' ops' ih' =>
      by_cases hop' : op'.isClear
      · rw [transcript_cons_of_isClear hop']
        rw [withoutClears_cons_of_isClear hop'] at hops
        exact ih' h.clearCaches_right hops
      · rw [withoutClears_cons hop'] at hops
        cases hops
  | cons op ops ih =>
    by_cases hop : op.isClear
    · rw [transcript_cons_of_isClear hop]
      rw [withoutClears_cons_of_isClear hop] at hops
      exact ih h.clearCaches_left hops
    rw [withoutClears_cons hop] at hops
    -- the clears before the same operation in the other run come first
    induction ops' generalizing t with
    | nil => cases hops
    | cons op' ops' ih' =>
      by_cases hop' : op'.isClear
      · rw [transcript_cons_of_isClear hop']
        rw [withoutClears_cons_of_isClear hop'] at hops
        exact ih' h.clearCaches_right hops
      · rw [withoutClears_cons hop'] at hops
        obtain ⟨rfl, hrest⟩ := List.cons.inj hops
        obtain ⟨hanswer, hnext⟩ := matches_perform op s t h
        rw [transcript_cons hop, transcript_cons hop]
        exact .cons ⟨rfl, hanswer⟩ (ih hnext hrest)

/-- Memoization does not show: through every run the look-ups are those of the host, and sessions over
one host answer the same, whatever their capacities and wherever either of them is cleared. -/
theorem memoization_hidden (host : Host σ) (memory : σ) :
    (∀ capacity ops, LooksUp host.lookups (run (start host memory capacity) ops).2) ∧
    (∀ c c' ops ops', withoutClears ops = withoutClears ops' →
      List.Forall₂ (fun p q => p.1 = q.1 ∧ SameAnswer c c' p.2 q.2)
        (transcript (start host memory c) ops) (transcript (start host memory c') ops')) ∧
    (∀ c ops ops', withoutClears ops = withoutClears ops' →
      transcript (start host memory c) ops = transcript (start host memory c) ops') := by
  have hpair : ∀ c c' ops ops', withoutClears ops = withoutClears ops' →
      List.Forall₂ (fun p q => p.1 = q.1 ∧ SameAnswer c c' p.2 q.2)
        (transcript (start host memory c) ops) (transcript (start host memory c') ops') :=
    fun c c' ops ops' hops => (alike_start host memory c c').transcript hops
  refine ⟨looksUp_run host memory, hpair, fun c ops ops' hops => ?_⟩
  refine List.forall₂_eq_eq_eq ▸ (hpair c c ops ops' hops).imp fun p q hpq => ?_
  exact Prod.ext hpq.1 hpq.2.eq

/-- One range of a file, and nothing else. -/
def mapped : Snapshot := { fileRegions := [⟨0x401000, 0x200, 0x10⟩] }

/-- Look-ups that are evicted, fail, hit and are forgotten in between. -/
def mappedLookups : List Operation :=
  [.getVirtualAddress 0x203, .getVirtualAddress 0x204, .clearCaches, .getVirtualAddress 0x204, .getFileOffset 0x400fff,
    .getFileOffset 0x400fff, .clearCaches, .getVirtualAddress 0x203]

theorem memoization_hidden_mapped :
    let s := (run (start mapped.host [] 1) mappedLookups).2
    (perform (.getVirtualAddress 0x203) s).1 = .word (.ok 0x401003) ∧
    (perform (.getVirtualAddress 0x210) s).1 = .word (.error (.notFound (.virtualAddress 0x210))) ∧
    (perform (.getFileOffset 0x401004) s).1 = .word (.ok 0x204) ∧
    (perform (.getFileOffset 0x400fff) s).1 = .word (.error (.notFound (.fileOffset 0x400fff))) ∧
    (perform (.getSegment (.name ".text")) s).1 = .segment (.error (.notFound (.segmentNamed ".text"))) ∧
    List.Forall₂ (fun p q => p.1 = q.1 ∧ SameAnswer 1 0 p.2 q.2)
      (transcript (start mapped.host [] 1) mappedLookups)
      (transcript (start mapped.host [] 0) (.clearCaches :: withoutClears mappedLookups)) := by
  intro s
  obtain ⟨hlookups, hpair, -⟩ := memoization_hidden mapped.host []
  have hlooks : LooksUp mapped.host.lookups s := hlookups 1 mappedLookups
  exact ⟨hlooks.virtualAddress 0x203 (by decide), hlooks.virtualAddress_bad 0x210 (by decide),
    hlooks.fileOffset 0x401004 (by decide), hlooks.fileOffset_negative 0x400fff (by decide),
    hlooks.segmentNamed_none ".text" rfl,
    hpair 1 0 mappedLookups (.clearCaches :: withoutClears mappedLookups) rfl⟩

end Session
end BinAtlas
