import BinAtlas.Config
import BinAtlas.Failure
import BinAtlas.Bytes.Hex
import BinAtlas.Host.Stored
import BinAtlas.Text.Utf8
import BinAtlas.Toolkit

/-! Snapshots and configurations in files. The name of a file tells its format. -/

namespace BinAtlas

/-- What a path leads to. -/
abbrev Files := String → Except ReadFault (List UInt8)

namespace Files

def text (files : Files) (path : String) : Except ReadFault String := do
  match Utf8.decode? (← files path) with
  | some s => .ok s
  | none => .error .notText

/-- The last part of a path, if that is a name. -/
def nameOf? (path : String) : Option String :=
  let parts := (path.splitOn "/").filter fun p => p != "" && p != "."
  parts.getLast?.filter (· ≠ "..")

/-- What follows the last point of a name, if something stands before the point. -/
def extension? (path : String) : Option String := do
  let parts := (← nameOf? path).splitOn "."
  match parts with
  | [] | [_] | ["", _] => none
  | _ => parts.getLast?

def formatOf (path : String) : Format :=
  match extension? path with
  | some "yaml" | some "yml" => .yaml
  | _ => .json

/-- The digest of a file, two lower-case digits for each of its bytes. -/
def hash (files : Files) (tools : Toolkit) (path : String) : Except Failure String :=
  match files path with
  | .ok bytes => .ok (Hex.encode (tools.digest bytes))
  | .error fault => .error (.hashing path fault)

/-- Opens the snapshot in a file. -/
def loadSnapshot (files : Files) (tools : Toolkit) (path : String) : Except Error Stored := do
  match files.text path with
  | .ok text => Snapshot.loadText tools.reader (formatOf path) text
  | .error fault => .error (.unreadable fault)

/-- Reads the configuration in a file. -/
def loadConfig (files : Files) (tools : Toolkit) (path : String) : Except Failure Config :=
  match files.text path with
  | .error fault => .error (.config path fault)
  | .ok text =>
    match (tools.reader (formatOf path)).record? Config.decode? text with
    | some c => .ok c
    | none => .error (.malformedConfig (formatOf path))

end Files
end BinAtlas
