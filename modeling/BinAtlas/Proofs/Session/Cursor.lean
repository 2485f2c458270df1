import BinAtlas.Proofs.Session.ByteStore

/-! A window of a session is a cursor in a bounded range. What one step does is told on plain
numbers, at every moment of every run, and no step on one window shows in another. -/

namespace BinAtlas

/-- The name of the window that an operation may change. -/
def Operation.target? : Operation → Option String
  | .openWindow id _ _ | .copyWindow _ id | .onWindow id _ => some id
  | _ => none

namespace Session

variable {σ : Type}

theorem window?_perform_of_ne {op : Operation} {id : String} (h : op.target? ≠ some id) (s : Session σ) :
    (perform op s).2.window? id = s.window? id := by
  by_cases hq : op.isQuery
  · unfold window?
    rw [(quiet_perform hq s).windows]
  cases op with
  | writeBytes a data => rw [perform_writeBytes]; rfl
  | openWindow name start stop =>
    have hne : id ≠ name := fun he => h (congrArg some he.symm)
    by_cases hle : start ≤ stop
    · rw [perform_openWindow_of_le hle]
      exact window?_setWindow_of_ne hne _ s
    · rw [perform_openWindow_of_lt hle]
  | copyWindow name target =>
    have hne : id ≠ target := fun he => h (congrArg some he.symm)
    cases hw : s.window? name with
    | none => rw [perform_copyWindow_none hw]
    | some w =>
      rw [perform_copyWindow hw]
      exact window?_setWindow_of_ne hne w s
  | onWindow name step =>
    have hne : id ≠ name := fun he => h (congrArg some he.symm)
    cases hw : s.window? name with
    | none => rw [perform_onWindow_none hw]
    | some w =>
      rw [perform_onWindow hw]
      refine (window?_setWindow_of_ne hne _ _).trans ?_
      unfold window?
      rw [windows_stepWindow]
  | _ => exact absurd rfl hq

/-- A step on a window: what it answers, and the window and the memory after it. -/
structure Turn (s : Session Image) (id : String) (step : WindowStep) (r : WindowAnswer) (w : Window) (m : Image) :
    Prop where
  answer : (perform (.onWindow id step) s).1 = .window r w.state
  window : (perform (.onWindow id step) s).2.window? id = some w
  memory : (perform (.onWindow id step) s).2.memory = m

theorem turn_of_step {s t : Session Image} {id : String} {w w' : Window} {step : WindowStep} {r : WindowAnswer}
    (hw : s.window? id = some w) (h : stepWindow w step s = ((r, w'), t)) : Turn s id step r w' t.memory := by
  refine ⟨?_, ?_, ?_⟩ <;> rw [perform_onWindow hw, h]
  · exact window?_setWindow id w' t
  · rfl

/-- The window of a name as a cursor: it counts from `start`, may stand anywhere, and reads and writes
before `stop`. -/
structure ActsAsCursor (s : Session Image) (id : String) (w : Window) : Prop where
  bounded : w.start.toNat ≤ w.stop.toNat
  /-- What is handled lies in the range, and its first address is the exact sum. -/
  in_range : ∀ n, 0 < w.span n →
    w.address.toNat = w.start.toNat + w.position.toNat ∧ w.address.toNat + w.span n ≤ w.stop.toNat
  /-- The position passes the end only where it was past it before. -/
  position_le : ∀ n, w.position.toNat + w.span n ≤ max w.position.toNat (w.stop.toNat - w.start.toNat)
  read : ∀ n, ∃ bytes w', Turn s id (.read n) (.bytes (.ok bytes)) w' s.memory ∧
    w.MovedTo (w.position.toNat + w.span n) w' ∧ bytes.length = w.span n ∧
    (∀ i < w.span n, bytes[i]? = (s.memory.contentAt (w.place + i)).or (some 0)) ∧
    s.view.getBytes (w.start + w.position) (w.span n) (some 0) = .ok bytes
  write : ∀ data, (∀ i < w.span data.length, (s.memory.contentAt (w.place + i)).isSome) →
    ∃ w' m, Turn s id (.write data) (.written (.ok (w.span data.length))) w' m ∧
    w.MovedTo (w.position.toNat + w.span data.length) w' ∧
    (∀ i < w.span data.length, m.contentAt (w.place + i) = data[i]?) ∧
    ∀ n, n < w.place ∨ w.place + w.span data.length ≤ n → m.contentAt n = s.memory.contentAt n
  write_refused : ∀ data, ¬ (∀ i < w.span data.length, (s.memory.contentAt (w.place + i)).isSome) →
    Turn s id (.write data) (.written (.error (.database (.notFound (.written (w.span data.length) w.address))))) w
      s.memory
  seek : ∀ target, 0 ≤ w.goal target ∧ w.goal target < UInt64.size → ∃ q : UInt64, (q.toNat : Int) = w.goal target ∧
    Turn s id (.seek target) (.moved (.ok q)) { w with position := q } s.memory
  seek_refused : ∀ target, ¬ (0 ≤ w.goal target ∧ w.goal target < UInt64.size) →
    Turn s id (.seek target) (.moved (.error .badSeek)) w s.memory
  flush : Turn s id .flush (.done (.ok ())) w s.memory
  copied : ∀ target, (perform (.copyWindow id target) s).2.window? target = some w
  outside : ∀ step n, n < w.start.toNat ∨ w.stop.toNat ≤ n →
    (perform (.onWindow id step) s).2.memory.contentAt n = s.memory.contentAt n
  /-- Only what is done under the name itself can change the window. -/
  kept : ∀ op, op.target? ≠ some id → (perform op s).2.window? id = some w

section Stored

variable {t : Snapshot} {s : Session Image} (stored : s.host = t.host) {id : String} {w : Window}
  (hw : s.window? id = some w)

include stored hw

theorem cursor_read (n : Nat) : ∃ bytes w', Turn s id (.read n) (.bytes (.ok bytes)) w' s.memory ∧
    w.MovedTo (w.position.toNat + w.span n) w' ∧ bytes.length = w.span n ∧
    (∀ i < w.span n, bytes[i]? = (s.memory.contentAt (w.place + i)).or (some 0)) ∧
    s.view.getBytes (w.start + w.position) (w.span n) (some 0) = .ok bytes := by
  refine ⟨s.memory.read (w.start + w.position) (w.span n) 0, w.advance (w.span n), turn_of_step hw ?_,
    w.movedTo_advance n, s.memory.length_read _ _ _, ?_, getBytes_eq stored nofun⟩
  · rw [stepWindow_read, view_bytes stored]
    by_cases hz : w.span n = 0
    · rw [if_pos hz, hz]
      rfl
    · rw [if_neg hz, w.address_eq (Nat.pos_of_ne_zero hz)]
  · intro i hi
    rw [← w.toNat_address (Nat.zero_lt_of_lt hi), w.address_eq (Nat.zero_lt_of_lt hi)]
    have hfill : some (0 : UInt8) = none → (s.memory.contentAt ((w.start + w.position).toNat + i)).isSome := nofun
    exact read_getElem? s.memory _ hi hfill

theorem cursor_write {data : List UInt8}
    (hl : ∀ i < w.span data.length, (s.memory.contentAt (w.place + i)).isSome) :
    ∃ w' m, Turn s id (.write data) (.written (.ok (w.span data.length))) w' m ∧
    w.MovedTo (w.position.toNat + w.span data.length) w' ∧
    (∀ i < w.span data.length, m.contentAt (w.place + i) = data[i]?) ∧
    ∀ n, n < w.place ∨ w.place + w.span data.length ≤ n → m.contentAt n = s.memory.contentAt n := by
  have hstep := stepWindow_write (patch_eq stored) w data
  rw [if_pos ((w.loaded_address_iff s.memory data.length).2 hl)] at hstep
  have hwrote := w.wrote_storeFrom hl
  exact ⟨_, _, turn_of_step hw hstep, hwrote.moved, hwrote.inside, hwrote.outside⟩

theorem cursor_outside (step : WindowStep) {n : Nat} (hn : n < w.start.toNat ∨ w.stop.toNat ≤ n) :
    (perform (.onWindow id step) s).2.memory.contentAt n = s.memory.contentAt n := by
  have hlaid := laid_perform (patch_eq stored) (.onWindow id step)
  rw [hlaid.contentAt]
  have hnone : (s.stored? (.onWindow id step)).bind (·.byteAt? n) = none := by
    unfold stored?
    split_ifs
    · cases step with
      | write data | writeAll data =>
        simp only [attempt?, hw, Option.map_some, Option.bind_some]
        exact w.byteAt?_patch_of_outside_range data hn
      | _ => rfl
    · rfl
  rw [hnone]
  cases s.memory.contentAt n <;> rfl

end Stored

/-- What a session says of windows: one that is opened stands at its start, one that would end before it
starts is refused, and every one is a cursor. -/
structure HoldsCursors (s : Session Image) : Prop where
  opened : ∀ id start stop (h : start ≤ stop),
    (perform (.openWindow id start stop) s).2.window? id = some { start, stop, position := 0, start_le_stop := h }
  refused : ∀ id start stop, ¬ start ≤ stop →
    perform (.openWindow id start stop) s = (.refused (.invalidInput (.window start stop)), s)
  cursor : ∀ id w, s.window? id = some w → ActsAsCursor s id w

theorem actsAsCursor {t : Snapshot} {s : Session Image} (stored : s.host = t.host) {id : String} {w : Window}
    (hw : s.window? id = some w) : ActsAsCursor s id w := by
  refine ⟨w.start_le_stop_toNat, ?_, w.position_add_span_le, cursor_read stored hw, fun _ => cursor_write stored hw, ?_,
    ?_, ?_, turn_of_step hw rfl, ?_, fun step n => cursor_outside stored hw step, ?_⟩
  · intro n hn
    rw [w.toNat_address hn]
    exact ⟨rfl, w.place_add_span_le hn⟩
  · intro data hl
    have hstep := stepWindow_write (patch_eq stored) w data
    rw [if_neg fun hload => hl ((w.loaded_address_iff s.memory data.length).1 hload)] at hstep
    exact turn_of_step hw hstep
  · intro target ht
    obtain ⟨q, hq, hseek⟩ := w.seek_of_mem target ht
    refine ⟨q, hq, turn_of_step (t := s) hw ?_⟩
    simp only [stepWindow, hseek]
    rfl
  · intro target ht
    refine turn_of_step (t := s) hw ?_
    simp only [stepWindow, w.seek_of_not_mem target ht]
    rfl
  · intro target
    rw [perform_copyWindow hw]
    exact window?_setWindow target w s
  · intro op hop
    rw [window?_perform_of_ne hop, hw]

/-- The windows of a session over a snapshot are cursors, at every moment of every run. -/
theorem holdsCursors_run (stored : Stored) (capacity : Nat) (ops : List Operation) :
    HoldsCursors (run (stored.session capacity) ops).2 := by
  have hhost : (run (stored.session capacity) ops).2.host = stored.tables.host := host_run _ ops
  refine ⟨?_, ?_, fun id w hw => actsAsCursor hhost hw⟩
  · intro id start stop h
    rw [perform_openWindow_of_le h]
    exact window?_setWindow id _ _
  · intro id start stop h
    exact perform_openWindow_of_lt h _ id

/-- A few bytes at the end of the address space. -/
def topmost : Stored := { tables := {}, image := [⟨0xfffffffffffffffc, #[1, 2]⟩] }

/-- The first window stays at its start; the copy is moved past its end. -/
def topmostSteps : List Operation :=
  [.openWindow "a" 0xfffffffffffffffd 0xffffffffffffffff, .copyWindow "a" "b", .onWindow "b" (.seek (.stop 7)),
    .onWindow "a" (.write [9, 9])]

theorem holdsCursors_run_topmost : ∃ w, (run (topmost.session 1) topmostSteps).2.window? "b" = some w ∧
    w.size < w.position ∧ ActsAsCursor (run (topmost.session 1) topmostSteps).2 "b" w := by
  have hw : ∃ w, (run (topmost.session 1) topmostSteps).2.window? "b" = some w ∧ w.size < w.position :=
    ⟨⟨0xfffffffffffffffd, 0xffffffffffffffff, 9, by decide⟩, rfl, by decide⟩
  obtain ⟨w, hw, hpast⟩ := hw
  exact ⟨w, hw, hpast, (holdsCursors_run topmost 1 topmostSteps).cursor "b" w hw⟩

end Session
end BinAtlas
