import BinAtlas.Proofs.Session.Memoization
import Mathlib.Data.List.Induction

/-! The four look-ups as one family: each has a kind of keys and of values, a cache, and one primitive of
the host. What a run has found of a kind is read off its operations and the answers of the host. -/

namespace BinAtlas

/-- Whether the operation is one of the four look-ups. -/
def Operation.isLookUp : Operation → Bool
  | .getVirtualAddress _ | .getFileOffset _ | .getSignature _ | .getSegment _ => true
  | _ => false

theorem Operation.isClear_of_isLookUp {op : Operation} (h : op.isLookUp) : op.isClear = false := by
  cases op with
  | clearCaches => cases h
  | _ => rfl

/-- The look-ups whose answers are remembered. -/
inductive LookupKind where
  | virtualAddress
  | fileOffset
  | signature
  | segment
  deriving DecidableEq

namespace LookupKind

variable {σ : Type}

def Key : LookupKind → Type
  | .virtualAddress => UInt64
  | .fileOffset | .signature => Address
  | .segment => SegmentKey

def Value : LookupKind → Type
  | .virtualAddress => Address
  | .fileOffset => UInt64
  | .signature => Signature
  | .segment => Segment

instance : (kind : LookupKind) → DecidableEq kind.Key
  | .virtualAddress => inferInstanceAs (DecidableEq UInt64)
  | .fileOffset | .signature => inferInstanceAs (DecidableEq Address)
  | .segment => inferInstanceAs (DecidableEq SegmentKey)

def operation : (kind : LookupKind) → kind.Key → Operation
  | .virtualAddress => .getVirtualAddress
  | .fileOffset => .getFileOffset
  | .signature => .getSignature
  | .segment => .getSegment

/-- The key that an operation looks up, if it is a look-up of that kind. -/
def key? : (kind : LookupKind) → Operation → Option kind.Key
  | .virtualAddress, .getVirtualAddress o => some o
  | .fileOffset, .getFileOffset a => some a
  | .signature, .getSignature a => some a
  | .segment, .getSegment key => some key
  | _, _ => none

/-- What the host gives for a key. -/
def lookup (l : Lookups) : (kind : LookupKind) → kind.Key → Except Error kind.Value
  | .virtualAddress => l.virtualAddress
  | .fileOffset => l.fileOffset
  | .signature => l.functionSignature
  | .segment => l.segment

/-- What the one primitive of the host that a key leads to gives. -/
def Reply : LookupKind → Type
  | .virtualAddress => Address
  | .fileOffset => Int
  | .signature => Option Signature
  | .segment => Option Segment

def reply (l : Lookups) : (kind : LookupKind) → kind.Key → kind.Reply
  | .virtualAddress, o => l.addressOfOffset o
  | .fileOffset, a => l.offsetOfAddress a
  | .signature, a => l.signature a
  | .segment, .name n => l.segmentNamed n
  | .segment, .address a => l.segmentAt a

/-- The way to the host that a key leads to. -/
def find : (kind : LookupKind) → kind.Key → Session.Action σ (Except Error kind.Value)
  | .virtualAddress => Session.findAddress
  | .fileOffset => Session.findOffset
  | .signature => Session.findSignature
  | .segment => Session.findSegment

/-- The question to the host that a key leads to. -/
def question : (kind : LookupKind) → kind.Key → Question
  | .virtualAddress, _ => .addressOfOffset
  | .fileOffset, _ => .offsetOfAddress
  | .signature, _ => .functionSignature
  | .segment, key => Session.segmentQuestion key

def answer : (kind : LookupKind) → Except Error kind.Value → Answer
  | .virtualAddress | .fileOffset => .word
  | .signature => .signature
  | .segment => .segment

def cache : (kind : LookupKind) → Session σ → Cache kind.Key kind.Value
  | .virtualAddress => Session.virtualAddresses
  | .fileOffset => Session.fileOffsets
  | .signature => Session.signatures
  | .segment => Session.segments

def keep : (kind : LookupKind) → Session σ → Cache kind.Key kind.Value → Session σ
  | .virtualAddress => fun s c => { s with virtualAddresses := c }
  | .fileOffset => fun s c => { s with fileOffsets := c }
  | .signature => fun s c => { s with signatures := c }
  | .segment => fun s c => { s with segments := c }

/-- The keys of a kind looked up with success, after one more operation. -/
def note (l : Lookups) (kind : LookupKind) (keys : List kind.Key) (op : Operation) : List kind.Key :=
  if op.isClear then []
  else
    match kind.key? op with
    | none => keys
    | some key => if (kind.lookup l key).isOk then key :: keys else keys

/-- The keys of a kind that a run looked up with success since it cleared the caches, the last one first. -/
def found (l : Lookups) (kind : LookupKind) (ops : List Operation) : List kind.Key := ops.foldl (kind.note l) []

variable {l : Lookups} {kind : LookupKind}

theorem exists_eq_operation {op : Operation} (h : op.isLookUp) :
    ∃ (kind : LookupKind) (key : kind.Key), op = kind.operation key := by
  cases op with
  | getVirtualAddress o => exact ⟨.virtualAddress, o, rfl⟩
  | getFileOffset a => exact ⟨.fileOffset, a, rfl⟩
  | getSignature a => exact ⟨.signature, a, rfl⟩
  | getSegment key => exact ⟨.segment, key, rfl⟩
  | _ => cases h

@[simp] theorem key?_operation (key : kind.Key) : kind.key? (kind.operation key) = some key := by
  cases kind <;> rfl

theorem key?_operation_of_ne {other : LookupKind} (h : other ≠ kind) (key : other.Key) :
    kind.key? (other.operation key) = none := by
  cases kind <;> cases other <;> first | rfl | exact absurd rfl h

theorem eq_operation {op : Operation} {key : kind.Key} (h : kind.key? op = some key) : op = kind.operation key := by
  cases kind <;> cases op <;> cases h <;> rfl

@[simp] theorem isLookUp_operation (key : kind.Key) : (kind.operation key).isLookUp := by
  cases kind <;> rfl

@[simp] theorem isClear_operation (key : kind.Key) : (kind.operation key).isClear = false := by
  cases kind <;> rfl

@[simp] theorem cache_keep (s : Session σ) (c : Cache kind.Key kind.Value) : kind.cache (kind.keep s c) = c := by
  cases kind <;> rfl

theorem cache_keep_of_ne {other : LookupKind} (h : other ≠ kind) (s : Session σ) (c : Cache other.Key other.Value) :
    kind.cache (other.keep s c) = kind.cache s := by
  cases kind <;> cases other <;> first | rfl | exact absurd rfl h

@[simp] theorem asked_keep (s : Session σ) (c : Cache kind.Key kind.Value) : (kind.keep s c).asked = s.asked := by
  cases kind <;> rfl

@[simp] theorem keep_cache (kind : LookupKind) (s : Session σ) : kind.keep s (kind.cache s) = s := by
  cases kind <;> rfl

@[simp] theorem host_keep (s : Session σ) (c : Cache kind.Key kind.Value) : (kind.keep s c).host = s.host := by
  cases kind <;> rfl

@[simp] theorem cache_asked (kind : LookupKind) (s : Session σ) (asked : List Question) :
    kind.cache { s with asked := asked } = kind.cache s := by
  cases kind <;> rfl

@[simp] theorem cache_clearCaches (kind : LookupKind) (s : Session σ) :
    kind.cache (Session.clearCaches s).2 = (kind.cache s).clear := by
  cases kind <;> rfl

/-- No more of the host is read than what the primitive gives. -/
theorem lookup_congr {m : Lookups} {key : kind.Key} (h : kind.reply m key = kind.reply l key) :
    kind.lookup m key = kind.lookup l key := by
  cases kind with
  | virtualAddress =>
    change m.virtualAddress key = l.virtualAddress key
    unfold Lookups.virtualAddress
    rw [show m.addressOfOffset key = l.addressOfOffset key from h]
  | fileOffset =>
    change m.fileOffset key = l.fileOffset key
    unfold Lookups.fileOffset
    rw [show m.offsetOfAddress key = l.offsetOfAddress key from h]
  | signature =>
    change m.functionSignature key = l.functionSignature key
    unfold Lookups.functionSignature
    rw [show m.signature key = l.signature key from h]
  | segment =>
    change m.segment key = l.segment key
    cases key with
    | name n => simp only [Lookups.segment, show m.segmentNamed n = l.segmentNamed n from h]
    | address a => simp only [Lookups.segment, show m.segmentAt a = l.segmentAt a from h]

theorem inquires_find (key : kind.Key) :
    Session.Inquires (kind.find key : Session.Action σ _) (kind.question key) (kind.lookup · key) := by
  cases kind with
  | virtualAddress => exact Session.inquires_findAddress key
  | fileOffset => exact Session.inquires_findOffset key
  | signature => exact Session.inquires_findSignature key
  | segment => exact Session.inquires_findSegment key

theorem found_concat (l : Lookups) (kind : LookupKind) (ops : List Operation) (op : Operation) :
    kind.found l (ops ++ [op]) = kind.note l (kind.found l ops) op := by
  rw [found, List.foldl_append]
  rfl

theorem found_of_isClear {op : Operation} (h : op.isClear) (ops : List Operation) : kind.found l (ops ++ [op]) = [] := by
  rw [found_concat, note, if_pos h]

theorem found_of_key?_eq_none {op : Operation} (hop : op.isClear = false) (h : kind.key? op = none)
    (ops : List Operation) : kind.found l (ops ++ [op]) = kind.found l ops := by
  rw [found_concat, note, if_neg (by simp [hop]), h]

theorem found_operation (key : kind.Key) (ops : List Operation) :
    kind.found l (ops ++ [kind.operation key]) =
      if (kind.lookup l key).isOk then key :: kind.found l ops else kind.found l ops := by
  rw [found_concat, note, if_neg (by simp), key?_operation]

theorem found_of_ok {key : kind.Key} {v : kind.Value} (h : kind.lookup l key = .ok v) (ops : List Operation) :
    kind.found l (ops ++ [kind.operation key]) = key :: kind.found l ops := by
  rw [found_operation, h]
  rfl

theorem found_of_error {key : kind.Key} {e : Error} (h : kind.lookup l key = .error e) (ops : List Operation) :
    kind.found l (ops ++ [kind.operation key]) = kind.found l ops := by
  rw [found_operation, h]
  rfl

theorem mem_found_concat {op : Operation} (hop : op.isClear = false) {ops : List Operation} {key : kind.Key} :
    key ∈ kind.found l (ops ++ [op]) ↔
      kind.key? op = some key ∧ (∃ v, kind.lookup l key = .ok v) ∨ key ∈ kind.found l ops := by
  cases hkey : kind.key? op with
  | none => simp [found_of_key?_eq_none hop hkey]
  | some other =>
    obtain rfl := eq_operation hkey
    cases hl : kind.lookup l other with
    | error e =>
      rw [found_of_error hl, or_iff_right]
      rintro ⟨heq, v, hv⟩
      rw [← Option.some.inj heq, hl] at hv
      cases hv
    | ok v =>
      rw [found_of_ok hl, List.mem_cons, Option.some.injEq, @eq_comm _ key]
      exact or_congr_left ⟨fun heq => ⟨heq, v, heq ▸ hl⟩, And.left⟩

/-- The host knows every key that was looked up with success. -/
theorem exists_ok_of_mem_found {ops : List Operation} {key : kind.Key} (h : key ∈ kind.found l ops) :
    ∃ v, kind.lookup l key = .ok v := by
  induction ops using List.reverseRecOn with
  | nil => cases h
  | append_singleton ops op ih =>
    cases hclear : op.isClear with
    | true =>
      rw [found_of_isClear hclear] at h
      cases h
    | false =>
      rcases (mem_found_concat hclear).1 h with ⟨-, hv⟩ | h
      · exact hv
      · exact ih h

theorem found_subset {past ops : List Operation} (hops : ∀ op ∈ ops, op.isClear = false) :
    kind.found l past ⊆ kind.found l (past ++ ops) := by
  induction ops generalizing past with
  | nil =>
    rw [List.append_nil]
    exact List.Subset.refl _
  | cons op ops ih =>
    obtain ⟨hop, hrest⟩ := List.forall_mem_cons.1 hops
    intro key hkey
    rw [List.append_cons]
    exact ih hrest ((mem_found_concat hop).2 (.inr hkey))

theorem found_append {past : List Operation} (h : kind.found l past = []) (ops : List Operation) :
    kind.found l (past ++ ops) = kind.found l ops := by
  rw [found, List.foldl_append, ← found, h]
  rfl

end LookupKind

end BinAtlas
