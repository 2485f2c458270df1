import BinAtlas.Files
import BinAtlas.Session.Operation

/-! An opened snapshot: its configuration, where it came from, and a session over it. -/

namespace BinAtlas

structure Atlas where
  config : Config
  path : String
  session : Session Image

/-- What is said of an opened snapshot. -/
structure AtlasInfo where
  snapshot : String
  sha256 : String
  host : String
  processor : String
  bitSize : UInt32
  bigEndian : Bool
  minAddress : Address
  maxAddress : Address
  capacity : Nat

/-- A session over an accepted snapshot. -/
def Stored.session (s : Stored) (capacity : Nat) : Session Image :=
  Session.start s.tables.host s.image capacity

namespace Atlas

/-- Opens a snapshot under a configuration. -/
def openWith (tools : Toolkit) (files : Files) (path : String) (config : Config) : Except Failure Atlas :=
  match files.loadSnapshot tools path with
  | .ok stored => .ok { config, path, session := stored.session config.cacheCapacity.toNat }
  | .error e => .error (.loading path e)

/-- The configuration in a file, or the standard one. -/
def configOf (tools : Toolkit) (files : Files) : Option String → Except Failure Config
  | some path => files.loadConfig tools path
  | none => .ok {}

/-- Reads the configuration first. -/
def openPath (tools : Toolkit) (files : Files) (path : String) (config : Option String) : Except Failure Atlas := do
  openWith tools files path (← configOf tools files config)

/-- Hashes the file once more, whatever it holds by now. -/
def info (a : Atlas) (tools : Toolkit) (files : Files) : Except Failure AtlasInfo := do
  let sha256 ← files.hash tools a.path
  let (i, _) := Session.getInfo a.session
  return { snapshot := a.path
           sha256
           host := a.session.view.name
           processor := i.processor
           bitSize := i.bitSize
           bigEndian := i.bigEndian
           minAddress := i.minAddress
           maxAddress := i.maxAddress
           capacity := i.capacity }

end Atlas

def AtlasInfo.encode (i : AtlasInfo) : Json :=
  .object [("snapshot", .text i.snapshot), ("sha256", .text i.sha256), ("host", .text i.host),
    ("processor", .text i.processor), ("bit_size", .word32 i.bitSize),
    ("big_endian", .bool i.bigEndian), ("min_address", .word i.minAddress),
    ("max_address", .word i.maxAddress), ("cache_capacity", .nat i.capacity)]

end BinAtlas
