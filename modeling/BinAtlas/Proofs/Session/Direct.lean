import BinAtlas.Session

/-! The four look-ups by address, offset or key, asked of the host directly: its sign for nothing
becomes an error. Each of them puts its one question, whatever the answer is. -/

namespace BinAtlas

namespace Lookups

def virtualAddress (l : Lookups) (o : UInt64) : Except Error Address :=
  let a := l.addressOfOffset o
  if a = Address.bad then .error (.notFound (.virtualAddress o)) else .ok a

def fileOffset (l : Lookups) (a : Address) : Except Error UInt64 :=
  let o := l.offsetOfAddress a
  if o < 0 then .error (.notFound (.fileOffset a)) else .ok o.toNat.toUInt64

def functionSignature (l : Lookups) (a : Address) : Except Error Signature :=
  match l.signature a with
  | some g => .ok g
  | none => .error (.notFound (.signature a))

def segment (l : Lookups) : SegmentKey → Except Error Segment
  | .name n =>
    match l.segmentNamed n with
    | some g => .ok g
    | none => .error (.notFound (.segmentNamed n))
  | .address a =>
    match l.segmentAt a with
    | some g => .ok g
    | none => .error (.notFound (.segmentAt a))

end Lookups

namespace Session

variable {σ α β : Type}

/-- An action that puts one question to the host, and does nothing but answer by its look-ups. -/
def Inquires (x : Action σ α) (q : Question) (answer : Lookups → α) : Prop :=
  ∀ s, x s = (answer s.host.lookups, { s with asked := q :: s.asked })

theorem inquires_ask (q : Question) (answer : Lookups → α) :
    Inquires (ask q (answer ·.host.lookups) : Action σ α) q answer := fun _ => rfl

/-- What is made of an answer puts no question of its own. -/
theorem Inquires.reads {x : Action σ α} {q : Question} {answer : Lookups → α} (h : Inquires x q answer)
    {f : α → Action σ β} {reading : Lookups → β} (hf : ∀ l, f (answer l) = pure (reading l)) :
    Inquires (x >>= f) q reading := by
  intro s
  change f (x s).1 (x s).2 = _
  rw [h s, hf]
  rfl

theorem inquires_findAddress (o : UInt64) :
    Inquires (findAddress o : Action σ _) .addressOfOffset (·.virtualAddress o) := by
  refine (inquires_ask _ (·.addressOfOffset o)).reads fun l => ?_
  exact (apply_ite pure _ _ _).symm

theorem inquires_findOffset (a : Address) :
    Inquires (findOffset a : Action σ _) .offsetOfAddress (·.fileOffset a) := by
  refine (inquires_ask _ (·.offsetOfAddress a)).reads fun l => ?_
  exact (apply_ite pure _ _ _).symm

theorem inquires_findSignature (a : Address) :
    Inquires (findSignature a : Action σ _) .functionSignature (·.functionSignature a) := by
  refine (inquires_ask _ (·.signature a)).reads fun l => ?_
  dsimp only [Lookups.functionSignature]
  cases l.signature a <;> rfl

/-- The question that a key leads to. -/
def segmentQuestion : SegmentKey → Question
  | .name _ => .segmentNamed
  | .address _ => .segmentAt

theorem inquires_findSegment (key : SegmentKey) :
    Inquires (findSegment key : Action σ _) (segmentQuestion key) (·.segment key) := by
  cases key with
  | name n =>
    refine (inquires_ask _ (·.segmentNamed n)).reads fun l => ?_
    dsimp only [Lookups.segment]
    cases l.segmentNamed n <;> rfl
  | address a =>
    refine (inquires_ask _ (·.segmentAt a)).reads fun l => ?_
    dsimp only [Lookups.segment]
    cases l.segmentAt a <;> rfl

end Session
end BinAtlas
