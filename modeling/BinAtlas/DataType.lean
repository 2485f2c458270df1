import BinAtlas.Host

/-! Types as they are shown: a pointer carries the type it points to. -/

namespace BinAtlas

/-- `link` is a type with a target; a type that was read from a document may have one or not,
whatever it says of being a pointer. -/
inductive DataType where
  | leaf (name : String) (size : UInt64) (isPointer : Bool)
  | link (name : String) (size : UInt64) (isPointer : Bool) (target : DataType)
  deriving DecidableEq

namespace DataType

def name : DataType → String
  | .leaf n _ _ => n
  | .link n _ _ _ => n

def size : DataType → UInt64
  | .leaf _ s _ => s
  | .link _ s _ _ => s

def isPointer : DataType → Bool
  | .leaf _ _ p => p
  | .link _ _ p _ => p

def target? : DataType → Option DataType
  | .leaf .. => none
  | .link _ _ _ t => some t

def ofHost : HostType → DataType
  | .named n s => .leaf n s false
  | .pointer n s t => .link n s true (ofHost t)

end DataType
end BinAtlas
