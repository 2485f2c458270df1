import BinAtlas.Address
import BinAtlas.Session.Operation

/-! The commands, and what is asked for together with them. -/

namespace BinAtlas

inductive Command where
  | info
  | functions (start stop : Option Address)
  | segments
  | segment (key : String)
  | references (a : Address) (direction : Direction)
  | imports
  | exports
  | read (a : Address) (n : Nat) (fill : Option UInt8)
  | string (a : Address) (length : Option Nat) (bits : Option UInt32)
  | dataType (name : String)
  | variable (a : Address)
  | fileOffset (a : Address)
  | virtualAddress (offset : UInt64)
  deriving DecidableEq

/-- A command with what is shared by all of them. -/
structure Invocation where
  snapshot : Option String
  config : Option String
  json : Bool
  command : Command
  deriving DecidableEq

/-- The files that a run reads. -/
def Invocation.paths (i : Invocation) : List String := i.config.toList ++ i.snapshot.toList

/-- Why arguments ask for no command: they are wrong, or they ask for an explanation of the program. -/
inductive Parting where
  | refused (message : String)
  | explained (text : String)

end BinAtlas
