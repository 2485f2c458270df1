import BinAtlas.Command
import BinAtlas.Format
import BinAtlas.Json.Value

/-! What the program is built upon and does not do itself: taking arguments apart by the grammar of its
commands, reading documents, writing JSON, and taking digests. -/

namespace BinAtlas

structure Toolkit where
  /-- What the arguments ask for, or why there is nothing to carry out. -/
  arguments : List String → Except Parting Invocation
  reader : Format → Reader
  /-- JSON over several lines, or why it cannot be written. -/
  pretty : Json → Except String String
  digest : List UInt8 → List UInt8

end BinAtlas
