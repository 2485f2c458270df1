import BinAtlas.Cache
import BinAtlas.Host
import BinAtlas.SegmentKey
import BinAtlas.Window

/-! A session: a host with its memory, and what is kept between queries. Four look-ups are
remembered in caches, three facts are asked for once, and the questions that reach the host are
noted down. -/

namespace BinAtlas

/-- The questions to a host that are noted. -/
inductive Question where
  | sdkVersion
  | appBitness
  | is64Bit
  | is32Bit
  | isBigEndian
  | processor
  | addressOfOffset
  | offsetOfAddress
  | functionSignature
  | segmentNamed
  | segmentAt
  deriving DecidableEq

structure Session (σ : Type) where
  host : Host σ
  memory : σ
  virtualAddresses : Cache UInt64 Address
  fileOffsets : Cache Address UInt64
  signatures : Cache Address Signature
  segments : Cache SegmentKey Segment
  bitSize : Option UInt32
  bigEndian : Option Bool
  processor : Option String
  /-- The questions asked, the last one first. -/
  asked : List Question
  windows : List (String × Window)

namespace Session

variable {σ α κ ν : Type}

/-- A session whose caches hold `capacity` entries each. -/
def start (host : Host σ) (memory : σ) (capacity : Nat) : Session σ :=
  { host
    memory
    virtualAddresses := .empty capacity
    fileOffsets := .empty capacity
    signatures := .empty capacity
    segments := .empty capacity
    bitSize := none
    bigEndian := none
    processor := none
    asked := []
    windows := [] }

def view (s : Session σ) : View := s.host.view s.memory

def capacity (s : Session σ) : Nat := s.fileOffsets.capacity

/-- How often a question was asked. -/
def count (s : Session σ) (q : Question) : Nat := s.asked.count q

/-- An action gives an answer and the session after it. -/
abbrev Action (σ α : Type) := StateM (Session σ) α

/-- Asks the host and notes the question. -/
def ask (q : Question) (answer : Session σ → α) : Action σ α := fun s =>
  (answer s, { s with asked := q :: s.asked })

def askVersion : Action σ UInt32 := ask .sdkVersion (·.view.sdkVersion)
def askAppBitness : Action σ UInt32 := ask .appBitness (·.view.appBitness)
def askIs64Bit : Action σ Bool := ask .is64Bit (·.view.is64Bit)
def askIs32Bit : Action σ Bool := ask .is32Bit (·.view.is32Bit)
def askBigEndian : Action σ Bool := ask .isBigEndian (·.view.bigEndian)
def askProcessor : Action σ String := ask .processor (·.view.processor)

def askAddressOfOffset (o : UInt64) : Action σ Address :=
  ask .addressOfOffset (·.host.lookups.addressOfOffset o)

def askOffsetOfAddress (a : Address) : Action σ Int :=
  ask .offsetOfAddress (·.host.lookups.offsetOfAddress a)

def askSignature (a : Address) : Action σ (Option Signature) :=
  ask .functionSignature (·.host.lookups.signature a)

def askSegmentNamed (n : String) : Action σ (Option Segment) :=
  ask .segmentNamed (·.host.lookups.segmentNamed n)

def askSegmentAt (a : Address) : Action σ (Option Segment) :=
  ask .segmentAt (·.host.lookups.segmentAt a)

/-- The host version from which it can tell the bitness of the application. -/
def bitnessVersion : UInt32 := 760

/-- Asks no more than is needed. -/
def askBitSize : Action σ UInt32 := do
  let version ← askVersion
  if bitnessVersion ≤ version then askAppBitness
  else
    let is64 ← askIs64Bit
    if is64 then return 64
    else
      let is32 ← askIs32Bit
      if is32 then return 32 else return 16

/-- Works a fact out only if it is not known yet, and keeps it. -/
def once (known : Session σ → Option α) (keep : Session σ → α → Session σ) (compute : Action σ α) :
    Action σ α := do
  match known (← get) with
  | some a => return a
  | none =>
    let a ← compute
    modify fun s => keep s a
    return a

/-- Address size in bits, asked for once. -/
def getBitSize : Action σ UInt32 :=
  once (·.bitSize) (fun s bits => { s with bitSize := some bits }) askBitSize

/-- Byte order, asked for once. -/
def getBigEndian : Action σ Bool :=
  once (·.bigEndian) (fun s b => { s with bigEndian := some b }) askBigEndian

/-- The name of a processor as all hosts share it: plain x86 has a name of its own. -/
def normalizeProcessor (name : String) : String := if name = "metapc" then "x86" else name

/-- The shared name of the processor, asked for once. -/
def getProcessor : Action σ String :=
  once (·.processor) (fun s name => { s with processor := some name })
    (return normalizeProcessor (← askProcessor))

/-- Looks in a cache first. Only what it lacks is worked out; a value is kept, a failure is not. -/
def remember [DecidableEq κ] (cache : Session σ → Cache κ ν)
    (keep : Session σ → Cache κ ν → Session σ) (key : κ) (compute : Action σ (Except Error ν)) :
    Action σ (Except Error ν) := fun s =>
  match (cache s).get key with
  | (some v, c) => (.ok v, keep s c)
  | (none, _) =>
    match compute s with
    | (.error e, t) => (.error e, t)
    | (.ok v, t) => (.ok v, keep t ((cache t).put key v))

/-- Asks the host which address an offset is at. The bad address is its sign for none. -/
def findAddress (o : UInt64) : Action σ (Except Error Address) := do
  let a ← askAddressOfOffset o
  if a = Address.bad then return .error (.notFound (.virtualAddress o))
  else return .ok a

/-- Asks the host which offset an address is at. A negative one is its sign for none. -/
def findOffset (a : Address) : Action σ (Except Error UInt64) := do
  let o ← askOffsetOfAddress a
  if o < 0 then return .error (.notFound (.fileOffset a))
  else return .ok o.toNat.toUInt64

def findSignature (a : Address) : Action σ (Except Error Signature) := do
  match ← askSignature a with
  | some g => return .ok g
  | none => return .error (.notFound (.signature a))

def findSegment : SegmentKey → Action σ (Except Error Segment)
  | .name n => do
    match ← askSegmentNamed n with
    | some g => return .ok g
    | none => return .error (.notFound (.segmentNamed n))
  | .address a => do
    match ← askSegmentAt a with
    | some g => return .ok g
    | none => return .error (.notFound (.segmentAt a))

def getVirtualAddress (o : UInt64) : Action σ (Except Error Address) :=
  remember (·.virtualAddresses) (fun s c => { s with virtualAddresses := c }) o (findAddress o)

def getFileOffset (a : Address) : Action σ (Except Error UInt64) :=
  remember (·.fileOffsets) (fun s c => { s with fileOffsets := c }) a (findOffset a)

def getSignature (a : Address) : Action σ (Except Error Signature) :=
  remember (·.signatures) (fun s c => { s with signatures := c }) a (findSignature a)

def getSegment (key : SegmentKey) : Action σ (Except Error Segment) :=
  remember (·.segments) (fun s c => { s with segments := c }) key (findSegment key)

/-- Forgets what the caches hold. -/
def clearCaches : Action σ Unit :=
  modify fun s =>
    { s with
      virtualAddresses := s.virtualAddresses.clear
      fileOffsets := s.fileOffsets.clear
      signatures := s.signatures.clear
      segments := s.segments.clear }

/-- Writes bytes into the host, all or none. -/
def patch (a : Address) (data : List UInt8) : Action σ Bool := fun s =>
  let (done, m) := s.host.patch s.memory a data
  (done, { s with memory := m })

def writeBytes (a : Address) (data : List UInt8) : Action σ (Except Error Unit) := do
  if ← patch a data then return .ok ()
  else return .error (.notFound (.written data.length a))

def window? (s : Session σ) (id : String) : Option Window := s.windows.lookup id

def setWindow (id : String) (w : Window) : Action σ Unit :=
  modify fun s => { s with windows := (id, w) :: s.windows.filter fun p => p.1 != id }

end Session
end BinAtlas
