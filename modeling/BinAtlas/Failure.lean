import BinAtlas.Error

/-! Failures of a whole task: an error, and what was being done when it came up. -/

namespace BinAtlas

inductive Failure where
  | query (e : Error)
  | enumerating (e : Error)
  | classifying (address : Address) (e : Error)
  | loading (path : String) (e : Error)
  | config (path : String) (fault : ReadFault)
  | malformedConfig (format : Format)
  | hashing (path : String) (fault : ReadFault)
  | badAddress (text : String)
  | unprintable (cause : String)
  | noSnapshot

/-- The texts of a failure, what was being done first. -/
def Failure.chain : Failure → List String
  | .query e => e.chain
  | .enumerating e => "Failed to enumerate functions" :: e.chain
  | .classifying a e => ("Failed to classify references at " ++ a.text) :: e.chain
  | .loading path e => ("Failed to load analysis snapshot at " ++ path) :: e.chain
  | .config path fault => [s!"Failed to read config at {path}", fault.message]
  | .malformedConfig f => [s!"Failed to parse config {f.name}", f.complaint]
  | .hashing path .directory =>
    [s!"Failed to read file for hashing: {path}", ReadFault.directory.message]
  | .hashing path fault => [s!"Failed to open file for hashing: {path}", fault.message]
  | .badAddress text => [s!"Invalid address '{text}': expected 0x-prefixed hex or decimal"]
  | .unprintable cause => ["Failed to serialize output", cause]
  | .noSnapshot => ["--snapshot <PATH> is required"]

/-- The chain on one line. -/
def Failure.message (f : Failure) : String := String.intercalate ": " f.chain

end BinAtlas
