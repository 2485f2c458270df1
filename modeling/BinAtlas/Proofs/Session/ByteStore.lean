import BinAtlas.Atlas
import BinAtlas.Proofs.Loading
import BinAtlas.Proofs.Session.Windows

/-! The memory of a session over a snapshot, through any run. Which addresses are loaded never
changes, and the byte of a loaded one is that of the latest successful write over it. The writes of
a run are read off its answers, so a write that is reported is one that is made, and no other is. -/

namespace BinAtlas

/-- Whether an answer reports bytes as written. Data that did not fit as a whole does so, too. -/
def Answer.wrote : Answer → Bool
  | .done (.ok _) | .window (.written (.ok _)) _ | .window (.done (.ok _)) _
  | .window (.done (.error .writeZero)) _ => true
  | _ => false

/-- The byte of the last patch that has one for a number. -/
def latest? (ps : List Patch) (n : Nat) : Option UInt8 := ps.reverse.findSome? (·.byteAt? n)

theorem latest?_append (ps qs : List Patch) (n : Nat) : latest? (ps ++ qs) n = (latest? qs n).or (latest? ps n) := by
  unfold latest?
  rw [List.reverse_append, List.findSome?_append]

namespace Session

variable {σ : Type}

/-- What an operation writes if the bytes it is about are loaded. -/
def attempt? (s : Session σ) : Operation → Option Patch
  | .writeBytes a data => some ⟨a.toNat, data⟩
  | .onWindow id (.write data) | .onWindow id (.writeAll data) => (s.window? id).map (·.patch data)
  | _ => none

theorem attempt?_of_isQuery (s : Session σ) {op : Operation} (h : op.isQuery) : s.attempt? op = none := by
  cases op <;> first | rfl | cases h

/-- What an operation writes. -/
def stored? (s : Session σ) (op : Operation) : Option Patch :=
  if (perform op s).1.wrote then s.attempt? op else none

/-- The writes of a run, in order. -/
def journal (s : Session σ) : List Operation → List Patch
  | [] => []
  | op :: ops => (s.stored? op).toList ++ (perform op s).2.journal ops

/-- The second image is the first one with a patch laid over its loaded bytes. -/
def Laid : Option Patch → Image → Image → Prop
  | none, m, m' => m' = m
  | some p, m, m' => ∀ n, m'.contentAt n = (m.contentAt n).map fun b => (p.byteAt? n).getD b

theorem Laid.contentAt {p : Option Patch} {m m' : Image} (h : Laid p m m') (n : Nat) :
    m'.contentAt n = (m.contentAt n).map fun b => (p.bind (·.byteAt? n)).getD b := by
  cases p with
  | none =>
    cases h
    cases m.contentAt n <;> rfl
  | some p => exact h n

section Image

variable {s : Session Image} (writes : s.host.patch = Image.patch)

include writes

theorem laid_writeBytes (a : Address) (data : List UInt8) :
    Laid (s.stored? (.writeBytes a data)) s.memory (perform (.writeBytes a data) s).2.memory := by
  unfold stored?
  rw [perform_writeBytes, writes]
  by_cases hl : s.memory.loaded a data.length
  · simp only [Image.patch_fst, hl, if_true, Answer.wrote, attempt?]
    exact Image.contentAt_patch hl
  · simp only [Image.patch_of_not_loaded hl, Answer.wrote, Bool.false_eq_true, if_false]
    rfl

theorem laid_onWindow (id : String) (step : WindowStep) :
    Laid (s.stored? (.onWindow id step)) s.memory (perform (.onWindow id step) s).2.memory := by
  unfold stored?
  cases hw : s.window? id with
  | none =>
    rw [perform_onWindow_none hw]
    rfl
  | some w =>
    rw [perform_onWindow hw]
    change Laid _ s.memory (stepWindow w step s).2.memory
    cases step with
    | write data =>
      rw [stepWindow_write writes, attempt?, hw, Option.map_some]
      by_cases hl : s.memory.loaded w.address (w.span data.length)
      · rw [if_pos hl]
        exact w.contentAt_storeFrom_address s.memory data
      · rw [if_neg hl]
        rfl
    | writeAll data =>
      rw [stepWindow_writeAll writes, attempt?, hw, Option.map_some]
      by_cases hl : s.memory.loaded w.address (w.span data.length)
      · rw [if_pos hl]
        by_cases hall : w.span data.length = data.length
        · rw [if_pos hall]
          exact w.contentAt_storeFrom_address s.memory data
        · rw [if_neg hall]
          exact w.contentAt_storeFrom_address s.memory data
      · rw [if_neg hl]
        rfl
    | _ => simp only [attempt?, ite_self]; rfl

/-- Every operation lays over the memory what it reports as written, and nothing else. -/
theorem laid_perform (op : Operation) : Laid (s.stored? op) s.memory (perform op s).2.memory := by
  by_cases hq : op.isQuery
  · rw [stored?, attempt?_of_isQuery s hq, ite_self]
    exact (quiet_perform hq s).memory
  cases op with
  | writeBytes a data => exact laid_writeBytes writes a data
  | onWindow id step => exact laid_onWindow writes id step
  | openWindow id start stop =>
    rw [show s.stored? (.openWindow id start stop) = none from ite_self _]
    by_cases h : start ≤ stop
    · rw [perform_openWindow_of_le h]
      rfl
    · rw [perform_openWindow_of_lt h]
      rfl
  | copyWindow id target =>
    rw [show s.stored? (.copyWindow id target) = none from ite_self _]
    cases hw : s.window? id with
    | none =>
      rw [perform_copyWindow_none hw]
      rfl
    | some w =>
      rw [perform_copyWindow hw]
      rfl
  | _ => exact absurd rfl hq

end Image

/-- At the end of a run the memory is the first one under all writes of the run, the latest on top. -/
theorem contentAt_run {s : Session Image} (writes : s.host.patch = Image.patch) (ops : List Operation) (n : Nat) :
    (run s ops).2.memory.contentAt n = (s.memory.contentAt n).map fun b => (latest? (s.journal ops) n).getD b := by
  induction ops generalizing s with
  | nil =>
    change s.memory.contentAt n = (s.memory.contentAt n).map fun b => b
    rw [Option.map_id']
  | cons op ops ih =>
    have hstep := (laid_perform writes op).contentAt n
    have hrest := ih (s := (perform op s).2) (by rw [host_perform]; exact writes)
    change (run (perform op s).2 ops).2.memory.contentAt n = _
    rw [hrest, hstep, journal, Option.map_map]
    congr 1
    funext b
    simp only [Function.comp_apply, latest?_append]
    cases latest? ((perform op s).2.journal ops) n with
    | some c => rfl
    | none => cases s.stored? op <;> simp [latest?]

/-- What a session says of bytes: the numbers that have one are those in the regions, `initial` is what
the regions give them, and `writes` are laid over it, the latest on top. -/
structure ByteStore (regions : List Region) (initial : Nat → Option UInt8) (writes : List Patch) (s : Session Image) :
    Prop where
  loaded_iff : ∀ n, (s.memory.contentAt n).isSome ↔ Loaded regions n
  lt_size : ∀ n, Loaded regions n → n < UInt64.size
  given : ∀ n b, initial n = some b → Given regions n b
  content : ∀ n, Loaded regions n → s.memory.contentAt n = (latest? writes n).or (initial n)
  write_ok_iff : ∀ a data,
    (perform (.writeBytes a data) s).1 = .done (.ok ()) ↔ ∀ i < data.length, Loaded regions (a.toNat + i)
  write_refused : ∀ a data, ¬ (∀ i < data.length, Loaded regions (a.toNat + i)) →
    perform (.writeBytes a data) s = (.done (.error (.notFound (.written data.length a))), s)
  /-- Without a write that succeeds every region stays as it is. -/
  unwritten : ∀ op, s.stored? op = none → (perform op s).2.memory = s.memory
  read : ∀ a n fill, (fill = none → ∀ i < n, Loaded regions (a.toNat + i)) → ∃ bytes : List UInt8,
    (perform (.getBytes a n fill) s).1 = .bytes (.ok bytes) ∧ bytes.length = n ∧
      ∀ i < n, bytes[i]? = (s.memory.contentAt (a.toNat + i)).or fill
  read_missing : ∀ a n, ¬ (∀ i < n, Loaded regions (a.toNat + i)) →
    (perform (.getBytes a n none) s).1 = .bytes (.error (.notFound (.bytes n a)))

section Stored

variable {t : Snapshot} {s : Session Image} (stored : s.host = t.host)

include stored

theorem view_eq : s.view = t.view s.memory := by
  rw [Session.view, stored]
  rfl

theorem view_bytes (a : Address) (n : Nat) (fill : UInt8) : s.view.bytes a n fill = s.memory.read a n fill := by
  rw [view_eq stored]
  rfl

theorem view_loaded (a : Address) (n : Nat) : s.view.loaded a n = s.memory.loaded a n := by
  rw [view_eq stored]
  rfl

/-- Without a filler every byte must be loaded; what is read is the content, with the filler for the rest. -/
theorem getBytes_eq {a : Address} {n : Nat} {fill : Option UInt8} (hl : fill = none → s.memory.loaded a n) :
    s.view.getBytes a n fill = .ok (s.memory.read a n (fill.getD 0)) := by
  unfold View.getBytes
  cases fill with
  | some d => exact congrArg Except.ok (view_bytes stored a n d)
  | none =>
    rw [view_bytes stored, view_loaded stored, if_pos (hl rfl)]
    rfl

theorem getBytes_of_not_loaded {a : Address} {n : Nat} (hl : ¬ s.memory.loaded a n) :
    s.view.getBytes a n none = .error (.notFound (.bytes n a)) := by
  unfold View.getBytes
  rw [view_loaded stored]
  exact if_neg hl

theorem patch_eq : s.host.patch = Image.patch := by
  rw [stored]
  rfl

theorem writeBytes_ok_iff (a : Address) (data : List UInt8) :
    (perform (.writeBytes a data) s).1 = .done (.ok ()) ↔ s.memory.loaded a data.length := by
  rw [perform_writeBytes, patch_eq stored, Image.patch_fst]
  cases s.memory.loaded a data.length <;> simp

theorem writeBytes_of_not_loaded {a : Address} {data : List UInt8} (hl : ¬ s.memory.loaded a data.length) :
    perform (.writeBytes a data) s = (.done (.error (.notFound (.written data.length a))), s) := by
  rw [perform_writeBytes, patch_eq stored, Image.patch_of_not_loaded hl]
  rfl

end Stored

theorem read_getElem? (m : Image) (a : Address) {n i : Nat} {fill : Option UInt8} (hi : i < n)
    (hl : fill = none → (m.contentAt (a.toNat + i)).isSome) :
    (m.read a n (fill.getD 0))[i]? = (m.contentAt (a.toNat + i)).or fill := by
  rw [Image.read_eq, List.getElem?_map, List.getElem?_range hi, Option.map_some]
  cases hc : m.contentAt (a.toNat + i) with
  | some b => rfl
  | none =>
    cases fill with
    | some d => rfl
    | none =>
      rw [hc] at hl
      cases hl rfl

/-- A session over an accepted snapshot stores bytes, through every run. -/
theorem byteStore_run {t : Snapshot} {stored : Stored} (accepted : t.load = .ok stored) (capacity : Nat)
    (ops : List Operation) :
    ByteStore t.memory stored.image.contentAt ((stored.session capacity).journal ops)
      (run (stored.session capacity) ops).2 := by
  have hhost : (run (stored.session capacity) ops).2.host = stored.tables.host := host_run _ ops
  have hcontent : ∀ n, (run (stored.session capacity) ops).2.memory.contentAt n =
      (stored.image.contentAt n).map fun b => (latest? ((stored.session capacity).journal ops) n).getD b :=
    contentAt_run rfl ops
  generalize (run (stored.session capacity) ops).2 = s at *
  have hinit := Snapshot.contentAt_isSome_iff accepted
  have hloaded : ∀ n, (s.memory.contentAt n).isSome ↔ Loaded t.memory n := by
    intro n
    rw [hcontent, Option.isSome_map, hinit]
  have hall : ∀ (a : Address) (n : Nat), s.memory.loaded a n ↔ ∀ i < n, Loaded t.memory (a.toNat + i) := by
    intro a n
    simp only [Image.loaded_iff, hloaded]
  refine ⟨hloaded, ?_, fun n b => Snapshot.given_of_contentAt accepted, ?_, ?_, ?_, ?_, ?_, ?_⟩
  · intro n hn
    refine Nat.lt_of_not_le fun hle => ?_
    rw [← hloaded, Image.contentAt_of_le _ hle] at hn
    cases hn
  · intro n hn
    obtain ⟨b, hb⟩ := Option.isSome_iff_exists.1 ((hinit n).2 hn)
    rw [hcontent, hb]
    cases latest? ((stored.session capacity).journal ops) n <;> rfl
  · intro a data
    rw [writeBytes_ok_iff hhost, hall]
  · intro a data hn
    rw [← hall] at hn
    exact writeBytes_of_not_loaded hhost hn
  · intro op hop
    have hlaid := laid_perform (patch_eq hhost) op
    rwa [hop] at hlaid
  · intro a n fill hl
    refine ⟨s.memory.read a n (fill.getD 0), ?_, s.memory.length_read a n _, fun i hi => ?_⟩
    · exact congrArg Answer.bytes (getBytes_eq hhost fun hf => (hall a n).2 (hl hf))
    · exact read_getElem? s.memory a hi fun hf => (hloaded _).2 (hl hf i hi)
  · intro a n hn
    rw [← hall] at hn
    exact congrArg Answer.bytes (getBytes_of_not_loaded hhost hn)

/-- Regions that overlap, one of them empty, in no order. -/
def overlapping : Snapshot := { memory := [⟨0x1002, #[3, 4, 5]⟩, ⟨0x1001, #[]⟩, ⟨0x1000, #[1, 2, 9, 9]⟩] }

/-- Writes across both regions, past them, and through a window that is longer than they are. -/
def overlappingWrites : List Operation :=
  [.writeBytes 0x1001 [7, 8, 9], .writeBytes 0x1004 [1, 1], .openWindow "w" 0x1003 0x2000,
    .onWindow "w" (.writeAll [5, 6]), .clearCaches, .getBytes 0xffffffffffffffff 3 (some 0)]

theorem byteStore_run_overlapping : ∃ stored, overlapping.load = .ok stored ∧
    ByteStore overlapping.memory stored.image.contentAt ((stored.session 2).journal overlappingWrites)
      (run (stored.session 2) overlappingWrites).2 := by
  have accepted := Snapshot.load_eq_ok_iff.2 ⟨(Snapshot.flaw?_eq_none_iff overlapping).1 rfl, rfl⟩
  exact ⟨_, accepted, byteStore_run accepted 2 overlappingWrites⟩

end Session
end BinAtlas
