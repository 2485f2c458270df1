import BinAtlas.Address

/-! A snapshot: the tables of an exported analysis database, as a document holds them. `stop` is
always the first address after a range. -/

namespace BinAtlas

/-- A run of loaded bytes. -/
structure Region where
  start : Address
  bytes : Array UInt8
  deriving DecidableEq

/-- A range of a file and the address it is loaded at. -/
structure FileRegion where
  address : Address
  offset : UInt64
  size : UInt64
  deriving DecidableEq

structure FunctionEntry where
  start : Address
  stop : Address
  name : Option String
  deriving DecidableEq

structure Parameter where
  name : String
  type : String
  deriving DecidableEq

/-- The prototype of a function. -/
structure Signature where
  address : Address
  declaration : String
  returnType : String
  callingConvention : String
  parameters : List Parameter
  deriving DecidableEq

/-- `bitness` is the snapshot's own where it is left out; `permissions` holds `r`, `w` and `x`. -/
structure SegmentEntry where
  name : String
  start : Address
  stop : Address
  bitness : Option UInt32
  permissions : String
  deriving DecidableEq

/-- An instruction or a piece of data. -/
structure Item where
  address : Address
  size : UInt64
  isCode : Bool
  name : Option String
  type : Option String
  stringWidth : Option UInt32
  deriving DecidableEq

/-- A cross reference with the host's own code for its kind. -/
structure Edge where
  source : Address
  target : Address
  kind : UInt8
  isCode : Bool
  deriving DecidableEq

structure TypeEntry where
  name : String
  size : UInt64
  deriving DecidableEq

structure Register where
  name : String
  number : UInt32
  size : UInt64
  deriving DecidableEq

structure Import where
  address : Address
  name : String
  library : String
  deriving DecidableEq

structure ExportEntry where
  ordinal : UInt64
  address : Address
  name : String
  deriving DecidableEq

structure Snapshot where
  sdkVersion : UInt32 := 900
  bitness : UInt32 := 64
  bigEndian : Bool := false
  processor : String := "metapc"
  minAddress : Option Address := none
  maxAddress : Option Address := none
  memory : List Region := []
  fileRegions : List FileRegion := []
  functions : List FunctionEntry := []
  signatures : List Signature := []
  segments : List SegmentEntry := []
  items : List Item := []
  edges : List Edge := []
  types : List TypeEntry := []
  registers : List Register := []
  imports : List Import := []
  exports : List ExportEntry := []
  deriving DecidableEq

end BinAtlas
