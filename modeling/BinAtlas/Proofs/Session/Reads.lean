import BinAtlas.Proofs.Session.Cursor
import BinAtlas.Proofs.Transfer
import Mathlib.Algebra.GroupWithZero.Nat

/-! Reads through a window do not depend on how they are cut. What lies ahead of a window is a list of bytes that
each read takes the first ones of. As long as nothing is stored and the window is only read from, the reads of a run
give this list piece by piece, whatever their lengths and whatever else is asked for between them. -/

namespace BinAtlas

namespace Operation

/-- How many bytes an operation asks of the window of a name. -/
def chunk? (id : String) : Operation → Option Nat
  | .onWindow name (.read n) => if name = id then some n else none
  | _ => none

/-- The operations that may store bytes. -/
def stores : Operation → Bool
  | .writeBytes .. | .onWindow _ (.write _) | .onWindow _ (.writeAll _) => true
  | _ => false

/-- A read from the window of a name, or an operation that stores nothing and leaves this window alone. -/
def Spares (id : String) (op : Operation) : Prop :=
  (∃ n, op = .onWindow id (.read n)) ∨ op.stores = false ∧ op.target? ≠ some id

theorem chunk?_of_target?_ne {op : Operation} {id : String} (h : op.target? ≠ some id) : op.chunk? id = none := by
  cases op with
  | onWindow name step =>
    have hne : name ≠ id := fun he => h (congrArg some he)
    cases step with
    | read n => exact if_neg hne
    | _ => rfl
  | _ => rfl

end Operation

/-- The bytes of an answer to a read. -/
def Answer.read? : Answer → Option (List UInt8)
  | .window (.bytes (.ok data)) _ => some data
  | _ => none

namespace Session

/-- What the reads of a run from the window of a name give, where a read that fails gives none. -/
def chunks (id : String) (ops : List Operation) (answers : List Answer) : List (Option (List UInt8)) :=
  (ops.zip answers).filterMap fun p => (p.1.chunk? id).map fun _ => p.2.read?

/-- How much they ask for together. -/
def total (id : String) (ops : List Operation) : Nat := (ops.filterMap (·.chunk? id)).sum

/-- Reads at the window of a name, where `bytes` is what lies ahead. -/
structure ReadsAhead (s : Session Image) (id : String) (w : Window) (bytes : List UInt8) : Prop where
  asked : (perform (.getBytes (w.start + w.position) w.rest (some 0)) s).1 = .bytes (.ok bytes)
  length : bytes.length = w.rest
  pieces : ∀ ops, (∀ op ∈ ops, op.Spares id) → ∃ (l : List (List UInt8)) (w' : Window),
    chunks id ops (run s ops).1 = l.map some ∧ l.flatten = bytes.take (total id ops) ∧
    (run s ops).2.window? id = some w' ∧ w.MovedTo (w.position.toNat + l.flatten.length) w'
  /-- A read to the end, as one step and as the loop over single reads with buffers of any sizes. -/
  toEnd : ∃ w', Turn s id .readToEnd (.drained (.ok bytes)) w' s.memory ∧
    w.MovedTo (w.position.toNat + w.rest) w' ∧
    ∀ buffer out, Repeats (Window.drainStep s.view buffer) (0, [], w) out ↔ out = (.ok bytes, w')
  exact : ∀ n ≤ w.rest, ∃ w', Turn s id (.readExact n) (.bytes (.ok (bytes.take n))) w' s.memory ∧
    w.MovedTo (w.position.toNat + n) w'
  exact_short : ∀ n, w.rest < n → ∃ w', Turn s id (.readExact n) (.bytes (.error .unexpectedEnd)) w' s.memory ∧
    w.MovedTo (w.position.toNat + w.rest) w'
  exact_loop : ∀ n, ∃ r w', Turn s id (.readExact n) (.bytes r) w' s.memory ∧
    ∀ out, Repeats (Window.fillStep s.view) (n, [], w) out ↔ out = (r, w')

theorem chunks_cons_read (id : String) (n : Nat) (ops : List Operation) (answer : Answer) (answers : List Answer) :
    chunks id (.onWindow id (.read n) :: ops) (answer :: answers) = answer.read? :: chunks id ops answers := by
  rw [chunks, List.zip_cons_cons, List.filterMap_cons_some]
  · rfl
  · simp [Operation.chunk?]

theorem chunks_cons_other {id : String} {op : Operation} (h : op.chunk? id = none) (ops : List Operation)
    (answer : Answer) (answers : List Answer) : chunks id (op :: ops) (answer :: answers) = chunks id ops answers := by
  rw [chunks, List.zip_cons_cons, List.filterMap_cons_none]
  · rfl
  · simp [h]

theorem total_cons_read (id : String) (n : Nat) (ops : List Operation) :
    total id (.onWindow id (.read n) :: ops) = n + total id ops := by
  have hchunk : Operation.chunk? id (.onWindow id (.read n)) = some n := if_pos rfl
  rw [total, List.filterMap_cons_some hchunk, List.sum_cons, total]

theorem total_cons_other {id : String} {op : Operation} (h : op.chunk? id = none) (ops : List Operation) :
    total id (op :: ops) = total id ops := by
  rw [total, List.filterMap_cons_none h, total]

theorem memory_perform_of_not_stores {s : Session Image} (writes : s.host.patch = Image.patch) {op : Operation}
    (h : op.stores = false) : (perform op s).2.memory = s.memory := by
  have hlaid := laid_perform writes op
  have hnone : s.attempt? op = none := by
    cases op with
    | writeBytes => cases h
    | onWindow id step =>
      cases step with
      | write | writeAll => cases h
      | _ => rfl
    | _ => rfl
  rw [stored?, hnone, ite_self] at hlaid
  exact hlaid

section Stored

variable {t : Snapshot} {s : Session Image} (stored : s.host = t.host) {id : String} {w : Window}
  (hw : s.window? id = some w)

include stored hw

theorem turn_read (n : Nat) :
    Turn s id (.read n) (.bytes (.ok ((w.ahead s.memory).take n))) (w.advance (w.span n)) s.memory := by
  have hread := Window.read_eq_take (view_bytes stored · · 0) w n
  refine turn_of_step (t := s) hw ?_
  change ((WindowAnswer.bytes (w.read s.view n).1, (w.read s.view n).2), s) = _
  rw [hread]

end Stored

/-- The reads of a run that spares the window together take what one read of all their lengths does. -/
theorem chunks_run {t : Snapshot} {s : Session Image} (stored : s.host = t.host) {id : String} {w : Window}
    (hw : s.window? id = some w) {ops : List Operation} (spared : ∀ op ∈ ops, op.Spares id) :
    ∃ l : List (List UInt8), chunks id ops (run s ops).1 = l.map some ∧
      l.flatten = (w.ahead s.memory).take (total id ops) ∧
      (run s ops).2.window? id = some (w.advance (w.span (total id ops))) := by
  induction ops generalizing s w with
  | nil =>
    refine ⟨[], rfl, rfl, ?_⟩
    rw [show total id [] = 0 from rfl, Window.span, Nat.zero_min, Window.advance_zero]
    exact hw
  | cons op ops ih =>
    obtain ⟨hop, hops⟩ := List.forall_mem_cons.1 spared
    have hhost : (perform op s).2.host = t.host := (host_perform op s).trans stored
    change ∃ l : List (List UInt8), chunks id (op :: ops) ((perform op s).1 :: (run (perform op s).2 ops).1) = _ ∧ _ ∧
      (run (perform op s).2 ops).2.window? id = _
    rcases hop with ⟨n, rfl⟩ | ⟨hstores, htarget⟩
    · have hturn := turn_read stored hw n
      obtain ⟨l, hl, hflatten, hlast⟩ := ih hhost hturn.window hops
      refine ⟨(w.ahead s.memory).take n :: l, ?_, ?_, ?_⟩
      · rw [chunks_cons_read, hturn.answer, hl]
        rfl
      · rw [List.flatten_cons, hflatten, hturn.memory, w.ahead_advance, total_cons_read, List.take_add]
      · rw [hlast, w.advance_advance, w.span_add, total_cons_read]
    · have hchunk := Operation.chunk?_of_target?_ne htarget
      have hmemory := memory_perform_of_not_stores (patch_eq stored) hstores
      have hwindow : (perform op s).2.window? id = some w := by rw [window?_perform_of_ne htarget, hw]
      obtain ⟨l, hl, hflatten, hlast⟩ := ih hhost hwindow hops
      refine ⟨l, ?_, ?_, ?_⟩
      · rw [chunks_cons_other hchunk, hl]
      · rw [hflatten, hmemory, total_cons_other hchunk]
      · rw [hlast, total_cons_other hchunk]

section Stored

variable {t : Snapshot} {s : Session Image} (stored : s.host = t.host) {id : String} {w : Window}
  (hw : s.window? id = some w)

include stored hw

theorem turn_readToEnd : Turn s id .readToEnd (.drained (.ok (w.ahead s.memory))) (w.advance w.rest) s.memory := by
  have hread := Window.readToEnd_eq (view_bytes stored · · 0) w fun _ => 8191
  refine turn_of_step (t := s) hw ?_
  change ((WindowAnswer.drained (w.readToEnd s.view fun _ => 8191).1, (w.readToEnd s.view fun _ => 8191).2), s) = _
  rw [hread]

theorem turn_readExact (n : Nat) :
    Turn s id (.readExact n) (.bytes (if n ≤ w.rest then .ok ((w.ahead s.memory).take n) else .error .unexpectedEnd))
      (w.advance (w.span n)) s.memory := by
  have hread := Window.readExact_eq (view_bytes stored · · 0) w n
  refine turn_of_step (t := s) hw ?_
  change ((WindowAnswer.bytes (w.readExact s.view n).1, (w.readExact s.view n).2), s) = _
  rw [hread]

theorem readsAhead : ReadsAhead s id w (w.ahead s.memory) := by
  have hend := w.movedTo_advance w.rest
  have hrest : w.span w.rest = w.rest := Nat.min_self _
  rw [hrest] at hend
  constructor
  case asked =>
    have hbytes := view_bytes stored (w.start + w.position) w.rest 0
    rw [w.read_start_add_position] at hbytes
    change Answer.bytes (.ok (s.view.bytes _ _ 0)) = _
    rw [hbytes]
  case length => exact w.length_ahead s.memory
  case pieces =>
    intro ops spared
    obtain ⟨l, hl, hflatten, hlast⟩ := chunks_run stored hw spared
    refine ⟨l, _, hl, hflatten, hlast, ?_⟩
    rw [hflatten, List.length_take, w.length_ahead]
    exact w.movedTo_advance _
  case toEnd =>
    refine ⟨_, turn_readToEnd stored hw, hend, fun buffer out => ?_⟩
    rw [← Window.readToEnd_eq (view_bytes stored · · 0) w buffer]
    exact (w.repeats_readToEnd s.view buffer).iff_eq out
  case exact =>
    intro n hn
    have hturn := turn_readExact stored hw n
    have hmoved := w.movedTo_advance n
    rw [if_pos hn] at hturn
    rw [Window.span, Nat.min_eq_left hn] at hmoved hturn
    exact ⟨_, hturn, hmoved⟩
  case exact_short =>
    intro n hn
    have hturn := turn_readExact stored hw n
    rw [if_neg (Nat.not_le.2 hn), Window.span, Nat.min_eq_right (Nat.le_of_lt hn)] at hturn
    exact ⟨_, hturn, hend⟩
  case exact_loop =>
    intro n
    refine ⟨_, _, turn_readExact stored hw n, fun out => ?_⟩
    rw [← Window.readExact_eq (view_bytes stored · · 0) w n]
    exact (w.repeats_readExact s.view n).iff_eq out

end Stored

/-- The windows of a session over a snapshot read what lies ahead of them, at every moment of every run. -/
theorem readsAhead_run (stored : Stored) (capacity : Nat) (ops : List Operation) {id : String} {w : Window}
    (hw : (run (stored.session capacity) ops).2.window? id = some w) :
    ∃ bytes, ReadsAhead (run (stored.session capacity) ops).2 id w bytes :=
  ⟨_, readsAhead (host_run (stored.session capacity) ops) hw⟩

/-- Two loaded bytes near the end of the address space. -/
def islet : Stored := { tables := {}, image := [⟨0xfffffffffffffffb, #[1, 2]⟩] }

/-- A window up to the last address, one byte into it. -/
def isletSteps : List Operation :=
  [.openWindow "w" 0xfffffffffffffffa 0xffffffffffffffff, .onWindow "w" (.seek (.start 1))]

/-- Reads of no byte, of one and of more than there are, and a copy that is moved in between. -/
def isletReads : List Operation :=
  [.onWindow "w" (.read 0), .getByte 0, .onWindow "w" (.read 1), .copyWindow "w" "v",
    .onWindow "v" (.seek (.start 0)), .onWindow "w" (.read 7)]

theorem readsAhead_run_islet :
    let s := (run (islet.session 1) isletSteps).2
    ∃ w, s.window? "w" = some w ∧ ReadsAhead s "w" w [1, 2, 0, 0] ∧
      (∃ (l : List (List UInt8)) (w' : Window), chunks "w" isletReads (run s isletReads).1 = l.map some ∧
        l.flatten = [1, 2, 0, 0] ∧ w.MovedTo 5 w') ∧
      ∃ w', Turn s "w" (.readExact 5) (.bytes (.error .unexpectedEnd)) w' s.memory ∧ w.MovedTo 5 w' := by
  intro s
  have hw : s.window? "w" = some ⟨0xfffffffffffffffa, 0xffffffffffffffff, 1, by decide⟩ := rfl
  obtain ⟨bytes, hreads⟩ := readsAhead_run islet 1 isletSteps hw
  have hasked : (perform (.getBytes 0xfffffffffffffffb 4 (some 0)) s).1 = .bytes (.ok [1, 2, 0, 0]) := rfl
  obtain rfl : bytes = [1, 2, 0, 0] := Except.ok.inj (Answer.bytes.inj (hreads.asked.symm.trans hasked))
  have hspared : ∀ op ∈ isletReads, op.Spares "w" := by
    intro op hop
    simp only [isletReads, List.mem_cons, List.not_mem_nil, or_false] at hop
    rcases hop with rfl | rfl | rfl | rfl | rfl | rfl
    · exact .inl ⟨0, rfl⟩
    · exact .inr ⟨rfl, nofun⟩
    · exact .inl ⟨1, rfl⟩
    · exact .inr ⟨rfl, by decide⟩
    · exact .inr ⟨rfl, by decide⟩
    · exact .inl ⟨7, rfl⟩
  obtain ⟨l, w', hl, hflatten, -, hmoved⟩ := hreads.pieces isletReads hspared
  refine ⟨_, hw, hreads, ⟨l, w', hl, hflatten, ?_⟩, hreads.exact_short 5 (by decide)⟩
  rwa [hflatten] at hmoved

end Session
end BinAtlas
