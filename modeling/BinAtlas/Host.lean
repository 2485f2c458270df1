import BinAtlas.Snapshot

/-! A host: the primitive answers of an analysis engine, with the engine's own signs for "nothing"
(`Address.bad`, a negative offset). What a host says may change when bytes are written into it,
but for the five look-ups of `Lookups`, which stay as they are. -/

namespace BinAtlas

structure Permissions where
  read : Bool
  write : Bool
  execute : Bool
  deriving DecidableEq

structure Segment where
  name : String
  start : Address
  stop : Address
  bitness : UInt32
  permissions : Permissions
  deriving DecidableEq

/-- The width of the units of a string literal. -/
inductive StringKind where
  | narrow
  | wide
  | long
  deriving DecidableEq

/-- A type of the host's library, or a pointer to one. -/
inductive HostType where
  | named (name : String) (size : UInt64)
  | pointer (name : String) (size : UInt64) (target : HostType)
  deriving DecidableEq

namespace StringKind

/-- The bytes of a unit. -/
def size : StringKind → Nat
  | .narrow => 1
  | .wide => 2
  | .long => 4

def ofBits? (bits : UInt32) : Option StringKind :=
  if bits = 8 then some .narrow
  else if bits = 16 then some .wide
  else if bits = 32 then some .long
  else none

end StringKind

namespace HostType

def name : HostType → String
  | .named n _ => n
  | .pointer n _ _ => n

end HostType

/-- Look-ups whose answers stay the same as long as the host is open. -/
structure Lookups where
  /-- The address of a file offset, or `Address.bad`. -/
  addressOfOffset : UInt64 → Address
  /-- The file offset of an address, or a negative number. -/
  offsetOfAddress : Address → Int
  signature : Address → Option Signature
  segmentNamed : String → Option Segment
  segmentAt : Address → Option Segment

/-- What a host answers at one moment. -/
structure View where
  name : String
  sdkVersion : UInt32
  /-- Asked only of hosts that are new enough. -/
  appBitness : UInt32
  is64Bit : Bool
  is32Bit : Bool
  bigEndian : Bool
  processor : String
  minAddress : Address
  maxAddress : Address
  loaded : Address → Nat → Bool
  byte : Address → UInt8
  word : Address → UInt16
  dword : Address → UInt32
  qword : Address → UInt64
  /-- Bytes with a filler for those that are not loaded. -/
  bytes : Address → Nat → UInt8 → List UInt8
  /-- Entries of functions in a range, in order; one that begins before it and reaches into it
  may be among them. -/
  functionEntries : Option Address → Option Address → List Address
  functionAt : Address → Option FunctionEntry
  register : String → Option Register
  segmentCount : Nat
  segment : Nat → Option Segment
  stringKind : Address → StringKind
  /-- The length of a literal in bytes, with its terminator. -/
  stringLength : Address → StringKind → Nat
  stringContents : Address → Nat → StringKind → Option (List UInt8)
  namedType : String → Option HostType
  pointerTo : HostType → HostType
  itemType : Address → Option HostType
  edgesFrom : Address → List Edge
  edgesTo : Address → List Edge
  itemHead : Address → Address
  itemEnd : Address → Address
  /-- The first head after an address and before a limit. -/
  nextHead : Address → Address → Option Address
  isCode : Address → Bool
  nameAt : Address → Option String
  imports : List Import
  exportCount : Nat
  exportOrdinal : Nat → UInt64
  exportAddress : UInt64 → Address
  exportName : UInt64 → String

/-- A host with memory of type `σ`. -/
structure Host (σ : Type) where
  lookups : Lookups
  view : σ → View
  /-- Writes bytes; the answer says whether that was possible. -/
  patch : σ → Address → List UInt8 → Bool × σ

end BinAtlas
