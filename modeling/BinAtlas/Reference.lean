import BinAtlas.Error
import BinAtlas.Snapshot

/-! Cross references under kinds that all hosts share. -/

namespace BinAtlas

inductive ReferenceKind where
  | unknown
  | dataOffset
  | dataWrite
  | dataRead
  | dataText
  | dataInformational
  | codeCall
  | codeJump
  | codeUser
  /-- Falling through to the next instruction. -/
  | ordinaryFlow
  deriving DecidableEq

namespace ReferenceKind

/-- The kind of a host's code. Far and near calls are one kind, and so are jumps; symbolic
constants (6) and all other codes have none. -/
def ofCode? (code : UInt8) : Option ReferenceKind :=
  match code.toNat with
  | 0 => some .unknown
  | 1 => some .dataOffset
  | 2 => some .dataWrite
  | 3 => some .dataRead
  | 4 => some .dataText
  | 5 => some .dataInformational
  | 16 => some .codeCall
  | 17 => some .codeCall
  | 18 => some .codeJump
  | 19 => some .codeJump
  | 20 => some .codeUser
  | 21 => some .ordinaryFlow
  | _ => none

def name : ReferenceKind → String
  | .unknown => "unknown"
  | .dataOffset => "data_offset"
  | .dataWrite => "data_write"
  | .dataRead => "data_read"
  | .dataText => "data_text"
  | .dataInformational => "data_informational"
  | .codeCall => "code_call"
  | .codeJump => "code_jump"
  | .codeUser => "code_user"
  | .ordinaryFlow => "ordinary_flow"

def all : List ReferenceKind :=
  [.unknown, .dataOffset, .dataWrite, .dataRead, .dataText, .dataInformational, .codeCall,
    .codeJump, .codeUser, .ordinaryFlow]

def ofName? (s : String) : Option ReferenceKind := all.find? fun k => k.name == s

def isData : ReferenceKind → Bool
  | .dataOffset | .dataWrite | .dataRead | .dataText | .dataInformational => true
  | _ => false

end ReferenceKind

/-- `isCode` is what the host says and `isData` what the kind says; neither follows from the
other. -/
structure Reference where
  source : Address
  target : Address
  kind : ReferenceKind
  isCode : Bool
  isData : Bool
  deriving DecidableEq

def Reference.ofEdge (e : Edge) : Except Error Reference :=
  match ReferenceKind.ofCode? e.kind with
  | some kind =>
    .ok { source := e.source, target := e.target, kind, isCode := e.isCode, isData := kind.isData }
  | none => .error (.unexpectedReferenceType e.kind)

end BinAtlas
