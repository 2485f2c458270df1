import BinAtlas.Proofs.Session.Direct
import BinAtlas.Session.Operation
import Mathlib.Tactic.SplitIfs

/-! What an operation leaves alone. Everything but a write and the steps on windows keeps the host,
its memory and the windows; the rest of a session is known only to the caches and the facts asked
for once. -/

namespace BinAtlas

/-- The operations that neither write bytes nor touch a window. -/
def Operation.isQuery : Operation → Bool
  | .writeBytes .. | .openWindow .. | .copyWindow .. | .onWindow .. => false
  | _ => true

namespace Session

variable {σ α β κ ν : Type}

/-- The second session has the host, the memory and the windows of the first. -/
structure Held (s t : Session σ) : Prop where
  host : t.host = s.host
  memory : t.memory = s.memory
  windows : t.windows = s.windows

theorem Held.refl (s : Session σ) : Held s s := ⟨rfl, rfl, rfl⟩

theorem Held.trans {s t u : Session σ} (h1 : Held s t) (h2 : Held t u) : Held s u :=
  ⟨h2.host.trans h1.host, h2.memory.trans h1.memory, h2.windows.trans h1.windows⟩

theorem Held.view {s t : Session σ} (h : Held s t) : t.view = s.view := by
  unfold Session.view
  rw [h.host, h.memory]

/-- An action after which all of that is as before. -/
def Quiet (x : Action σ α) : Prop := ∀ s, Held s (x s).2

theorem quiet_pure (a : α) : Quiet (pure a : Action σ α) := Held.refl

theorem quiet_bind {x : Action σ α} {f : α → Action σ β} (hx : Quiet x) (hf : ∀ a, Quiet (f a)) : Quiet (x >>= f) :=
  fun s => (hx s).trans (hf (x s).1 (x s).2)

theorem quiet_get : Quiet (get : Action σ (Session σ)) := Held.refl

theorem quiet_look (answer : View → α) : Quiet (look answer : Action σ α) := Held.refl

theorem quiet_modify {f : Session σ → Session σ} (h : ∀ s, Held s (f s)) : Quiet (modify f : Action σ PUnit) := h

theorem quiet_ask (q : Question) (answer : Session σ → α) : Quiet (ask q answer) := fun _ => ⟨rfl, rfl, rfl⟩

theorem quiet_clearCaches : Quiet (clearCaches : Action σ Unit) := quiet_modify fun _ => ⟨rfl, rfl, rfl⟩

theorem Inquires.quiet {x : Action σ α} {q : Question} {answer : Lookups → α} (h : Inquires x q answer) : Quiet x := by
  intro s
  rw [h s]
  exact ⟨rfl, rfl, rfl⟩

theorem quiet_remember [DecidableEq κ] {cache : Session σ → Cache κ ν} {keep : Session σ → Cache κ ν → Session σ}
    (hk : ∀ s c, Held s (keep s c)) (key : κ) {compute : Action σ (Except Error ν)} (hc : Quiet compute) :
    Quiet (remember cache keep key compute) := by
  intro s
  unfold remember
  rcases (cache s).get key with ⟨_ | v, c⟩
  · have hcomputed := hc s
    dsimp only
    generalize compute s = r at hcomputed
    obtain ⟨e | v, t⟩ := r
    · exact hcomputed
    · exact hcomputed.trans (hk _ _)
  · exact hk s c

theorem quiet_getVirtualAddress (o : UInt64) : Quiet (getVirtualAddress o : Action σ _) := by
  refine quiet_remember (fun s c => ?_) o (inquires_findAddress o).quiet
  exact ⟨rfl, rfl, rfl⟩

theorem quiet_getFileOffset (a : Address) : Quiet (getFileOffset a : Action σ _) := by
  refine quiet_remember (fun s c => ?_) a (inquires_findOffset a).quiet
  exact ⟨rfl, rfl, rfl⟩

theorem quiet_getSignature (a : Address) : Quiet (getSignature a : Action σ _) := by
  refine quiet_remember (fun s c => ?_) a (inquires_findSignature a).quiet
  exact ⟨rfl, rfl, rfl⟩

theorem quiet_getSegment (key : SegmentKey) : Quiet (getSegment key : Action σ _) := by
  refine quiet_remember (fun s c => ?_) key (inquires_findSegment key).quiet
  exact ⟨rfl, rfl, rfl⟩

theorem quiet_getSegmentBy (key : Json) : Quiet (getSegmentBy key : Action σ _) := by
  unfold getSegmentBy
  cases SegmentKey.ofJson key with
  | ok key => exact quiet_getSegment key
  | error e => exact quiet_pure _

theorem quiet_askBitSize : Quiet (askBitSize : Action σ _) := by
  refine quiet_bind (quiet_ask _ _) fun version => ?_
  split_ifs
  · exact quiet_ask _ _
  refine quiet_bind (quiet_ask _ _) fun is64 => ?_
  split_ifs
  · exact quiet_pure _
  refine quiet_bind (quiet_ask _ _) fun is32 => ?_
  split_ifs <;> exact quiet_pure _

theorem quiet_once {known : Session σ → Option α} {keep : Session σ → α → Session σ} {compute : Action σ α}
    (hk : ∀ s a, Held s (keep s a)) (hc : Quiet compute) : Quiet (once known keep compute) := by
  refine quiet_bind quiet_get fun s => ?_
  cases known s with
  | some a => exact quiet_pure a
  | none => exact quiet_bind hc fun a => quiet_bind (quiet_modify fun t => hk t a) fun _ => quiet_pure a

theorem quiet_getBitSize : Quiet (getBitSize : Action σ _) := by
  refine quiet_once (fun s bits => ?_) quiet_askBitSize
  exact ⟨rfl, rfl, rfl⟩

theorem quiet_getBigEndian : Quiet (getBigEndian : Action σ _) := by
  refine quiet_once (fun s b => ?_) (quiet_ask _ _)
  exact ⟨rfl, rfl, rfl⟩

theorem quiet_getProcessor : Quiet (getProcessor : Action σ _) := by
  refine quiet_once (fun s name => ?_) (quiet_bind (quiet_ask _ _) fun _ => quiet_pure _)
  exact ⟨rfl, rfl, rfl⟩

theorem quiet_getInfo : Quiet (getInfo : Action σ _) :=
  quiet_bind quiet_getBitSize fun _ => quiet_bind quiet_getBigEndian fun _ =>
    quiet_bind (quiet_look _) fun _ => quiet_bind (quiet_look _) fun _ =>
      quiet_bind quiet_getProcessor fun _ => quiet_bind quiet_get fun _ => quiet_pure _

theorem quiet_perform {op : Operation} (h : op.isQuery) : Quiet (perform op : Action σ Answer) := by
  cases op with
  | writeBytes | openWindow | copyWindow | onWindow => cases h
  | clearCaches => exact quiet_bind quiet_clearCaches fun _ => quiet_pure _
  | info => exact quiet_bind quiet_getInfo fun _ => quiet_pure _
  | describe => exact quiet_bind quiet_get fun _ => quiet_pure _
  | getVirtualAddress o => exact quiet_bind (quiet_getVirtualAddress o) fun _ => quiet_pure _
  | getFileOffset a => exact quiet_bind (quiet_getFileOffset a) fun _ => quiet_pure _
  | getSignature a => exact quiet_bind (quiet_getSignature a) fun _ => quiet_pure _
  | getSegment key => exact quiet_bind (quiet_getSegment key) fun _ => quiet_pure _
  | getSegmentBy key => exact quiet_bind (quiet_getSegmentBy key) fun _ => quiet_pure _
  | functionSignature a =>
    refine quiet_bind quiet_get fun s => ?_
    cases s.view.getFunction a with
    | error e => exact quiet_pure _
    | ok f => exact quiet_bind (quiet_getSignature f.start) fun _ => quiet_pure _
  | segmentsEqual key other =>
    exact quiet_bind (quiet_getSegmentBy other) fun _ => quiet_bind (quiet_getSegmentBy key) fun _ => quiet_pure _
  | segmentData key => exact quiet_bind (quiet_getSegmentBy key) fun _ => quiet_look _
  | segmentFunctions key => exact quiet_bind (quiet_getSegmentBy key) fun _ => quiet_look _
  | segmentContains key as => exact quiet_bind (quiet_getSegmentBy key) fun _ => quiet_pure _
  | _ => exact quiet_look _

end Session
end BinAtlas
