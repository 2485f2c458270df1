import BinAtlas.Proofs.Extent
import BinAtlas.Proofs.Session.Reads

/-! The bounds of a session over a snapshot that gives none of its own. Writes move neither of them, so they enclose
what is loaded at every moment of a run, and a window opened on them reads all of it. -/

namespace BinAtlas

/-- At its start a window has the bytes of all its addresses ahead, with zeros for those that are not loaded. -/
theorem Window.ahead_getElem? (w : Window) (m : Image) (start : w.position = 0) {a : Address} (hlow : w.start ≤ a)
    (hhigh : a < w.stop) : (w.ahead m)[a.toNat - w.start.toNat]? = some ((m.byte? a).getD 0) := by
  rw [UInt64.le_iff_toNat_le] at hlow
  rw [UInt64.lt_iff_toNat_lt] at hhigh
  have hplace : w.place + (a.toNat - w.start.toNat) = a.toNat := by
    rw [place, start, UInt64.toNat_zero]
    omega
  have hrest : a.toNat - w.start.toNat < w.rest := by
    rw [rest, start, UInt64.toNat_zero]
    omega
  rw [ahead, List.getElem?_map, List.getElem?_range hrest, Option.map_some, hplace, Image.contentAt_toNat]

namespace Session

variable {σ : Type}

/-- The window of a name, read to the end, gives the content of every loaded address of a range at its offset and
zeros for the others. -/
def DrainsRange (low high : Address) (id : String) (s : Session Image) : Prop :=
  ∃ bytes w, Turn s id .readToEnd (.drained (.ok bytes)) w s.memory ∧ bytes.length = high.toNat - low.toNat ∧
    ∀ a, low ≤ a → a < high → bytes[a.toNat - low.toNat]? = some ((s.memory.byte? a).getD 0)

/-- What a session says of the range from `low` to `high`, where `regions` are loaded. -/
structure Encloses (regions : List Region) (low high : Address) (s : Session Image) : Prop where
  asked : ∃ i, (perform .info s).1 = .info i ∧ i.minAddress = low ∧ i.maxAddress = high
  inside : ∀ a, s.view.loaded a 1 → low ≤ a ∧ a < high
  opens : ∀ id, ∃ state, (perform (.openWindow id low high) s).1 = .window (.done (.ok ())) state
  /-- The read may follow at once, or after any operations that leave the window alone. -/
  reads : ∀ id ops, (∀ op ∈ ops, op.target? ≠ some id) →
    DrainsRange low high id (run (perform (.openWindow id low high) s).2 ops).2
  tight : regions ≠ [] → (∀ r ∈ regions, r.bytes ≠ #[]) → s.view.loaded low 1 ∧ s.view.loaded (high - 1) 1

theorem perform_info (s : Session σ) :
    ∃ i, (perform .info s).1 = .info i ∧ i.minAddress = s.view.minAddress ∧ i.maxAddress = s.view.maxAddress := by
  have hview : (getBigEndian (getBitSize s).2).2.view = s.view :=
    ((quiet_getBitSize s).trans (quiet_getBigEndian _)).view
  exact ⟨_, rfl, congrArg View.minAddress hview, congrArg View.maxAddress hview⟩

theorem window?_run_of_ne {id : String} {ops : List Operation} (h : ∀ op ∈ ops, op.target? ≠ some id) (s : Session σ) :
    (run s ops).2.window? id = s.window? id := by
  induction ops generalizing s with
  | nil => rfl
  | cons op ops ih =>
    obtain ⟨hop, hops⟩ := List.forall_mem_cons.1 h
    exact (ih hops (perform op s).2).trans (window?_perform_of_ne hop s)

section Image

variable {s : Session Image} (writes : s.host.patch = Image.patch)

include writes

theorem spans_stepWindow (w : Window) (step : WindowStep) :
    (stepWindow w step s).2.memory.spans = s.memory.spans := by
  cases step with
  | write data =>
    rw [stepWindow_write writes]
    by_cases hl : s.memory.loaded w.address (w.span data.length)
    · rw [if_pos hl]
      exact s.memory.spans_storeFrom _ _ _
    · rw [if_neg hl]
  | writeAll data =>
    rw [stepWindow_writeAll writes]
    by_cases hl : s.memory.loaded w.address (w.span data.length)
    · rw [if_pos hl]
      exact s.memory.spans_storeFrom _ _ _
    · rw [if_neg hl]
  | _ => rfl

/-- No operation moves a region or changes how long it is. -/
theorem spans_perform (op : Operation) : (perform op s).2.memory.spans = s.memory.spans := by
  rcases hstores : op.stores with _ | _
  · rw [memory_perform_of_not_stores writes hstores]
  cases op with
  | writeBytes a data =>
    rw [perform_writeBytes, writes]
    exact s.memory.spans_patch a data
  | onWindow id step =>
    rcases hw : s.window? id with _ | w
    · rw [perform_onWindow_none hw]
    · rw [perform_onWindow hw]
      exact spans_stepWindow writes w step
  | _ => cases hstores

end Image

theorem spans_run {s : Session Image} (writes : s.host.patch = Image.patch) (ops : List Operation) :
    (run s ops).2.memory.spans = s.memory.spans := by
  induction ops generalizing s with
  | nil => rfl
  | cons op ops ih =>
    have hwrites : (perform op s).2.host.patch = Image.patch := by rw [host_perform, writes]
    exact (ih hwrites).trans (spans_perform writes op)

section Stored

variable {t : Snapshot} {s : Session Image} (stored : s.host = t.host)

include stored

theorem drainsRange {id : String} {w : Window} (hw : s.window? id = some w) (start : w.position = 0) :
    DrainsRange w.start w.stop id s := by
  refine ⟨_, _, turn_readToEnd stored hw, ?_, fun a => w.ahead_getElem? s.memory start⟩
  rw [w.length_ahead, Window.rest, start]
  rfl

theorem encloses {low high : Address} {regions : List Region} (bounds : Bounds regions low high)
    (minimum : s.view.minAddress = low) (maximum : s.view.maxAddress = high)
    (loaded : ∀ n, (s.memory.contentAt n).isSome ↔ Loaded regions n) : Encloses regions low high s := by
  have hloaded : ∀ a, s.view.loaded a 1 ↔ Loaded regions a.toNat := by
    intro a
    rw [view_loaded stored, Image.loaded_iff]
    simp [loaded]
  have hle := bounds.low_le_high
  constructor
  case asked =>
    obtain ⟨i, hi, hmin, hmax⟩ := perform_info s
    exact ⟨i, hi, hmin.trans minimum, hmax.trans maximum⟩
  case inside =>
    intro a ha
    obtain ⟨hlow, hhigh⟩ := bounds.enclose ((hloaded a).1 ha)
    exact ⟨UInt64.le_iff_toNat_le.2 hlow, UInt64.lt_iff_toNat_lt.2 hhigh⟩
  case opens =>
    intro id
    rw [perform_openWindow_of_le hle]
    exact ⟨_, rfl⟩
  case reads =>
    intro id ops spared
    rw [perform_openWindow_of_le hle]
    have hw := (window?_run_of_ne spared _).trans (window?_setWindow id ⟨low, high, 0, hle⟩ s)
    have hhost : (run (setWindow id ⟨low, high, 0, hle⟩ s).2 ops).2.host = t.host := (host_run _ ops).trans stored
    exact drainsRange hhost hw rfl
  case tight =>
    intro present filled
    obtain ⟨hfirst, hlast⟩ := bounds.loaded_ends present filled
    have hlow : low.toNat < high.toNat := (bounds.enclose hfirst).2
    have hone : (1 : UInt64).toNat ≤ high.toNat := Nat.lt_of_le_of_lt (Nat.zero_le _) hlow
    have hpred : (high - 1).toNat = high.toNat - 1 := UInt64.toNat_sub_of_le high 1 (UInt64.le_iff_toNat_le.2 hone)
    rw [hloaded, hloaded, hpred]
    exact ⟨hfirst, hlast⟩

end Stored

/-- The bounds of an accepted snapshot that names none are the least start and the greatest end of its regions, at
every moment of every run. -/
theorem encloses_run {t : Snapshot} {stored : Stored} (accepted : t.load = .ok stored) (minimum : t.minAddress = none)
    (maximum : t.maxAddress = none) (capacity : Nat) :
    ∃ low high, Bounds t.memory low high ∧
      ∀ ops, Encloses t.memory low high (run (stored.session capacity) ops).2 := by
  obtain ⟨sound, hstored⟩ := Snapshot.load_eq_ok_iff.1 accepted
  have hperm : stored.image.Perm t.memory := by
    rw [hstored]
    exact List.mergeSort_perm _ _
  have hmin : stored.tables.minAddress = none := by rw [hstored, minimum]
  have hmax : stored.tables.maxAddress = none := by rw [hstored, maximum]
  have hbounds := Bounds.of_fits fun r hr => sound.memory r (hperm.mem_iff.1 hr)
  refine ⟨_, _, hbounds.of_perm hperm, fun ops => ?_⟩
  have hspans : (run (stored.session capacity) ops).2.memory.spans = stored.image.spans := spans_run rfl ops
  have hview := view_eq (host_run (stored.session capacity) ops)
  refine encloses (host_run _ ops) (hbounds.of_perm hperm) ?_ ?_ (byteStore_run accepted capacity ops).loaded_iff
  · rw [hview, Image.minStart?_eq stored.image, ← hspans, ← Image.minStart?_eq]
    exact congrArg (Option.getD · 0) (by rw [hmin]; rfl)
  · rw [hview, Image.maxStop?_eq stored.image, ← hspans, ← Image.maxStop?_eq]
    exact congrArg (Option.getD · 0) (by rw [hmax]; rfl)

/-- Regions up to the top of the address space that overlap, one of them inside another. -/
def summit : Snapshot :=
  { memory := [⟨0xfffffffffffffff8, #[1, 2, 3, 4]⟩, ⟨0xfffffffffffffffa, #[5, 6, 7, 8, 9]⟩, ⟨0xfffffffffffffff9, #[0]⟩] }

theorem encloses_run_summit : ∃ stored, summit.load = .ok stored ∧
    let s := (run (stored.session 1) [.writeBytes 0xfffffffffffffffd [7, 7], .clearCaches]).2
    Encloses summit.memory 0xfffffffffffffff8 0xffffffffffffffff s ∧ s.view.loaded 0xfffffffffffffffe 1 := by
  have accepted := Snapshot.load_eq_ok_iff.2 ⟨(Snapshot.flaw?_eq_none_iff summit).1 rfl, rfl⟩
  have bounds : Bounds summit.memory 0xfffffffffffffff8 0xffffffffffffffff := by
    refine ⟨by decide, by decide, fun _ => ?_, fun _ => ?_, nofun⟩
    · exact ⟨⟨0xfffffffffffffff8, #[1, 2, 3, 4]⟩, by simp [summit], rfl⟩
    · exact ⟨⟨0xfffffffffffffffa, #[5, 6, 7, 8, 9]⟩, by simp [summit], rfl⟩
  obtain ⟨low, high, hbounds, hencloses⟩ := encloses_run accepted rfl rfl 1
  obtain ⟨rfl, rfl⟩ := hbounds.unique bounds
  have hend := hencloses [.writeBytes 0xfffffffffffffffd [7, 7], .clearCaches]
  exact ⟨_, accepted, hend, (hend.tight (by decide) (by decide)).2⟩

end Session
end BinAtlas
