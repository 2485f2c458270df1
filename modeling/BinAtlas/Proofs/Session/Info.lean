import BinAtlas.Session.Operation
import Mathlib.Tactic.SplitIfs

/-! What a session says of itself when nothing has been asked of it. Each fact is told by the host as it is
then; how many questions that takes depends on the answers. -/

namespace BinAtlas

/-- The bits of an address. A host of which the bitness cannot be asked tells whether it is one of 64 or of
32 bits. -/
def View.bits (v : View) : UInt32 :=
  if 760 ≤ v.sdkVersion then v.appBitness else if v.is64Bit then 64 else if v.is32Bit then 32 else 16

/-- What the processor is called. -/
def View.processorName (v : View) : String := if v.processor = "metapc" then "x86" else v.processor

namespace Session

variable {σ α β : Type}

/-- An action that puts questions to the host, and does nothing but answer by what it tells. -/
def Tells (x : Action σ α) (answer : View → α) : Prop :=
  ∀ s, ∃ asked, x s = (answer s.view, { s with asked })

theorem tells_pure (a : α) : Tells (pure a : Action σ α) fun _ => a := fun s => ⟨s.asked, rfl⟩

theorem tells_ask (q : Question) (answer : View → α) : Tells (ask q (answer ·.view) : Action σ α) answer :=
  fun _ => ⟨_, rfl⟩

theorem Tells.bind {x : Action σ α} {f : α → Action σ β} {told : View → α} {answer : α → View → β}
    (hx : Tells x told) (hf : ∀ a, Tells (f a) (answer a)) : Tells (x >>= f) fun v => answer (told v) v := by
  intro s
  obtain ⟨asked, h⟩ := hx s
  obtain ⟨more, hmore⟩ := hf (told s.view) { s with asked }
  refine ⟨more, ?_⟩
  change f (x s).1 (x s).2 = _
  rw [h]
  exact hmore

theorem tells_ite {x y : Action σ α} {f g : View → α} (b : Prop) [Decidable b] (hx : Tells x f) (hy : Tells y g) :
    Tells (if b then x else y) fun v => if b then f v else g v := by
  split_ifs
  · exact hx
  · exact hy

theorem tells_askBitSize : Tells (askBitSize : Action σ UInt32) View.bits := by
  have h32 : Tells (askIs32Bit >>= fun is32 => if is32 then return 32 else return 16 : Action σ UInt32) _ :=
    (tells_ask _ (·.is32Bit)).bind fun is32 => tells_ite (is32 = true) (tells_pure 32) (tells_pure 16)
  have h64 := (tells_ask .is64Bit (·.is64Bit)).bind fun is64 => tells_ite (is64 = true) (tells_pure 64) h32
  exact (tells_ask .sdkVersion (·.sdkVersion)).bind fun version =>
    tells_ite (bitnessVersion ≤ version) (tells_ask .appBitness (·.appBitness)) h64

theorem tells_processor : Tells (do return normalizeProcessor (← askProcessor) : Action σ String) View.processorName :=
  (tells_ask .processor (·.processor)).bind fun name => tells_pure (normalizeProcessor name)

/-- A fact that is not known yet is asked for, and kept. -/
theorem once_of_none {known : Session σ → Option α} {keep : Session σ → α → Session σ} {compute : Action σ α}
    {answer : View → α} (hc : Tells compute answer) {s : Session σ} (hnone : known s = none) :
    ∃ asked, once known keep compute s = (answer s.view, keep { s with asked } (answer s.view)) := by
  obtain ⟨asked, h⟩ := hc s
  refine ⟨asked, ?_⟩
  have hget : once known keep compute s = (do let a ← compute; modify fun t => keep t a; return a : Action σ α) s := by
    simp only [once, bind, StateT.bind, get, getThe, MonadStateOf.get, StateT.get, pure, hnone]
  rw [hget]
  change ((compute s).1, keep (compute s).2 (compute s).1) = _
  rw [h]

/-- All that is said of a session of which nothing has been asked. -/
theorem getInfo_start (host : Host σ) (memory : σ) (capacity : Nat) :
    let v := host.view memory
    (getInfo (start host memory capacity)).1 =
      { bitSize := v.bits, bigEndian := v.bigEndian, minAddress := v.minAddress, maxAddress := v.maxAddress
        processor := v.processorName, capacity } := by
  intro v
  let s := start host memory capacity
  obtain ⟨asked₁, hbits⟩ : ∃ asked, getBitSize s = (v.bits, { s with asked, bitSize := some v.bits }) :=
    once_of_none tells_askBitSize rfl
  let s₁ := { s with asked := asked₁, bitSize := some v.bits }
  obtain ⟨asked₂, horder⟩ : ∃ asked, getBigEndian s₁ =
      (v.bigEndian, { s₁ with asked, bigEndian := some v.bigEndian }) :=
    once_of_none (tells_ask _ (·.bigEndian)) rfl
  let s₂ := { s₁ with asked := asked₂, bigEndian := some v.bigEndian }
  obtain ⟨asked₃, hname⟩ : ∃ asked, getProcessor s₂ =
      (v.processorName, { s₂ with asked, processor := some v.processorName }) :=
    once_of_none tells_processor rfl
  -- each fact is asked for in the session that the one before it has left
  change Info.mk (getBitSize s).1 (getBigEndian (getBitSize s).2).1 (getBigEndian (getBitSize s).2).2.view.minAddress
    (getBigEndian (getBitSize s).2).2.view.maxAddress (getProcessor (getBigEndian (getBitSize s).2).2).1
    (getProcessor (getBigEndian (getBitSize s).2).2).2.capacity = _
  rw [hbits, horder, hname]
  rfl

end Session
end BinAtlas
