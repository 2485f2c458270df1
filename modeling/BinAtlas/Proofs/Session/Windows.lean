import BinAtlas.Proofs.Session.Frame
import BinAtlas.Proofs.Window

/-! The windows of a session by name. A step on one window changes that window and, if it writes,
the memory; a copy or a new window changes the name it is kept under. -/

namespace BinAtlas.Session

variable {σ : Type}

theorem lookup_filter_ne {β : Type} {id other : String} (h : other ≠ id) (l : List (String × β)) :
    (l.filter fun p => p.1 != id).lookup other = l.lookup other := by
  induction l with
  | nil => rfl
  | cons p l ih =>
    obtain ⟨k, v⟩ := p
    by_cases hk : k = id
    · subst hk
      rw [List.filter_cons_of_neg (by simp), ih, List.lookup_cons, beq_false_of_ne h]
    · rw [List.filter_cons_of_pos (by simpa using hk), List.lookup_cons, List.lookup_cons, ih]

theorem window?_setWindow (id : String) (w : Window) (s : Session σ) : (setWindow id w s).2.window? id = some w := by
  change ((id, w) :: s.windows.filter fun p => p.1 != id).lookup id = some w
  rw [List.lookup_cons, beq_self_eq_true]

theorem window?_setWindow_of_ne {id other : String} (h : other ≠ id) (w : Window) (s : Session σ) :
    (setWindow id w s).2.window? other = s.window? other := by
  change ((id, w) :: s.windows.filter fun p => p.1 != id).lookup other = s.windows.lookup other
  rw [List.lookup_cons, beq_false_of_ne h]
  exact lookup_filter_ne h s.windows

theorem perform_onWindow_none {s : Session σ} {id : String} (h : s.window? id = none) (step : WindowStep) :
    perform (.onWindow id step) s = (.noWindow, s) := by
  change onWindow id step s = _
  unfold onWindow
  simp only [bind, StateT.bind, get, getThe, MonadStateOf.get, StateT.get, pure, h]
  rfl

theorem perform_onWindow {s : Session σ} {id : String} {w : Window} (h : s.window? id = some w) (step : WindowStep) :
    perform (.onWindow id step) s =
      (.window (stepWindow w step s).1.1 (stepWindow w step s).1.2.state,
        (setWindow id (stepWindow w step s).1.2 (stepWindow w step s).2).2) := by
  change onWindow id step s = _
  unfold onWindow
  simp only [bind, StateT.bind, get, getThe, MonadStateOf.get, StateT.get, pure, h]
  rfl

theorem host_stepWindow (w : Window) (step : WindowStep) (s : Session σ) : (stepWindow w step s).2.host = s.host := by
  cases step <;> rfl

theorem windows_stepWindow (w : Window) (step : WindowStep) (s : Session σ) :
    (stepWindow w step s).2.windows = s.windows := by
  cases step <;> rfl

theorem perform_openWindow_of_le {start stop : Address} (h : start ≤ stop) (s : Session σ) (id : String) :
    perform (.openWindow id start stop) s =
      (.window (.done (.ok ())) (Window.mk start stop 0 h).state, (setWindow id ⟨start, stop, 0, h⟩ s).2) := by
  change openWindow id start stop s = _
  unfold openWindow Window.openOn
  rw [dif_pos h]
  rfl

theorem perform_openWindow_of_lt {start stop : Address} (h : ¬ start ≤ stop) (s : Session σ) (id : String) :
    perform (.openWindow id start stop) s = (.refused (.invalidInput (.window start stop)), s) := by
  change openWindow id start stop s = _
  unfold openWindow Window.openOn
  rw [dif_neg h]
  rfl

theorem perform_copyWindow_none {s : Session σ} {id : String} (h : s.window? id = none) (target : String) :
    perform (.copyWindow id target) s = (.noWindow, s) := by
  change copyWindow id target s = _
  unfold copyWindow
  simp only [bind, StateT.bind, get, getThe, MonadStateOf.get, StateT.get, pure, h]
  rfl

theorem perform_copyWindow {s : Session σ} {id : String} {w : Window} (h : s.window? id = some w) (target : String) :
    perform (.copyWindow id target) s = (.window (.done (.ok ())) w.state, (setWindow target w s).2) := by
  change copyWindow id target s = _
  unfold copyWindow
  simp only [bind, StateT.bind, get, getThe, MonadStateOf.get, StateT.get, pure, h]
  rfl

theorem perform_writeBytes (a : Address) (data : List UInt8) (s : Session σ) :
    perform (.writeBytes a data) s =
      (.done (if (s.host.patch s.memory a data).1 then .ok () else .error (.notFound (.written data.length a))),
        { s with memory := (s.host.patch s.memory a data).2 }) := by
  change (writeBytes a data >>= fun r => pure (.done r) : Action σ Answer) s = _
  unfold writeBytes patch
  simp only [bind, StateT.bind, pure]
  cases (s.host.patch s.memory a data).1 <;> rfl

theorem host_perform (op : Operation) (s : Session σ) : (perform op s).2.host = s.host := by
  by_cases hq : op.isQuery
  · exact (quiet_perform hq s).host
  cases op with
  | writeBytes a data => rw [perform_writeBytes]
  | openWindow id start stop =>
    by_cases h : start ≤ stop
    · rw [perform_openWindow_of_le h]
      rfl
    · rw [perform_openWindow_of_lt h]
  | copyWindow id target =>
    cases h : s.window? id with
    | none => rw [perform_copyWindow_none h]
    | some w =>
      rw [perform_copyWindow h]
      rfl
  | onWindow id step =>
    cases h : s.window? id with
    | none => rw [perform_onWindow_none h]
    | some w =>
      rw [perform_onWindow h]
      exact host_stepWindow w step s
  | _ => exact absurd rfl hq

theorem host_run (s : Session σ) (ops : List Operation) : (run s ops).2.host = s.host := by
  induction ops generalizing s with
  | nil => rfl
  | cons op ops ih => exact (ih (perform op s).2).trans (host_perform op s)

theorem stepWindow_read (w : Window) (n : Nat) (s : Session σ) :
    stepWindow w (.read n) s =
      ((.bytes (.ok (if w.span n = 0 then [] else s.view.bytes w.address (w.span n) 0)), w.advance (w.span n)), s) := by
  change ((WindowAnswer.bytes (w.read s.view n).1, (w.read s.view n).2), s) = _
  rw [Window.read_eq]

section Image

variable {s : Session Image} (writes : s.host.patch = Image.patch) (w : Window) (data : List UInt8)

include writes

theorem stepWindow_write :
    stepWindow w (.write data) s =
      if s.memory.loaded w.address (w.span data.length) then
        ((.written (.ok (w.span data.length)), w.advance (w.span data.length)),
          { s with memory := s.memory.storeFrom w.address 0 (data.take (w.span data.length)) })
      else ((.written (.error (.database (.notFound (.written (w.span data.length) w.address)))), w), s) := by
  simp only [stepWindow, Window.write_eq writes]
  split_ifs <;> rfl

theorem stepWindow_writeAll :
    stepWindow w (.writeAll data) s =
      if s.memory.loaded w.address (w.span data.length) then
        ((.done (if w.span data.length = data.length then .ok () else .error .writeZero),
            w.advance (w.span data.length)),
          { s with memory := s.memory.storeFrom w.address 0 (data.take (w.span data.length)) })
      else ((.done (.error (.database (.notFound (.written (w.span data.length) w.address)))), w), s) := by
  simp only [stepWindow, Window.writeAll_eq writes]
  split_ifs <;> rfl

end Image

end BinAtlas.Session
