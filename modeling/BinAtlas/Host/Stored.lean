import BinAtlas.Host
import BinAtlas.Snapshot.Loading
import BinAtlas.Text.Wide

/-! The host that answers from a snapshot. Only bytes can change; all else is looked up in the
tables, first entry first. -/

namespace BinAtlas

namespace Image

/-- The unit of `size` bytes that starts `i` places after an address, if all of it is loaded. -/
def unit? (m : Image) (bigEndian : Bool) (a : Address) (size i : Nat) : Option Nat :=
  (a.plus? i).bind fun p =>
    if m.loaded p size then some (number bigEndian (m.read p size 0)) else none

/-- Measures at most `n` units from place `i` on, up to the first zero and with it. -/
def measure (m : Image) (bigEndian : Bool) (a : Address) (size i : Nat) : Nat → Nat
  | 0 => i
  | n + 1 =>
    match m.unit? bigEndian a size i with
    | none => i
    | some u => if u = 0 then i + size else m.measure bigEndian a size (i + size) n

/-- At most `n` units from place `i` on, up to the first zero and without it. -/
def units (m : Image) (bigEndian : Bool) (a : Address) (size i : Nat) : Nat → List Nat
  | 0 => []
  | n + 1 =>
    match m.unit? bigEndian a size i with
    | none => []
    | some u => if u = 0 then [] else u :: m.units bigEndian a size (i + size) n

/-- The bytes a host measures at most. -/
def longestString : Nat := 4096

def stringLength (m : Image) (bigEndian : Bool) (a : Address) (kind : StringKind) : Nat :=
  m.measure bigEndian a kind.size 0 (longestString / kind.size)

/-- Narrow units are bytes; wider ones are read as characters and written in UTF-8. -/
def spell : StringKind → List Nat → List UInt8
  | .narrow, units => units.map (·.toUInt8)
  | .wide, units => Utf8.encode (Utf16.decode units)
  | .long, units => Utf8.encode (Utf32.decode units)

def stringContents (m : Image) (bigEndian : Bool) (a : Address) (n : Nat) (kind : StringKind) :
    Option (List UInt8) :=
  if n < kind.size || !m.loaded a kind.size then none
  else some (spell kind (m.units bigEndian a kind.size 0 (n / kind.size)))

end Image

namespace FunctionEntry

def covers (f : FunctionEntry) (a : Address) : Bool := a == f.start || (f.start < a && a < f.stop)

/-- Whether the function reaches into a range. -/
def meets (f : FunctionEntry) (start stop : Option Address) : Bool :=
  start.all (fun s => s < f.stop || s ≤ f.start) && stop.all fun e => f.start < e

end FunctionEntry

namespace FileRegion

def coversOffset (r : FileRegion) (o : UInt64) : Bool := r.offset ≤ o && o - r.offset < r.size

def coversAddress (r : FileRegion) (a : Address) : Bool := r.address ≤ a && a - r.address < r.size

end FileRegion

/-- Whether texts agree up to the case of ASCII letters. -/
def sameLetters (s t : String) : Bool := s.toList.map Char.toLower == t.toList.map Char.toLower

namespace Snapshot

def segmentOf (s : Snapshot) (g : SegmentEntry) : Segment :=
  { name := g.name
    start := g.start
    stop := g.stop
    bitness := g.bitness.getD s.bitness
    permissions :=
      { read := g.permissions.toList.contains 'r'
        write := g.permissions.toList.contains 'w'
        execute := g.permissions.toList.contains 'x' } }

def functionAt (s : Snapshot) (a : Address) : Option FunctionEntry :=
  s.functions.find? (·.covers a)

def itemAt (s : Snapshot) (a : Address) : Option Item := s.items.find? (·.covers a)

def addressOfOffset (s : Snapshot) (o : UInt64) : Address :=
  match s.fileRegions.find? (·.coversOffset o) with
  | some r => r.address + (o - r.offset)
  | none => Address.bad

/-- The words from here on are negative as signed ones. -/
def signBit : Nat := 0x8000000000000000

/-- An offset that has no place among the signed words is no answer either. -/
def offsetOfAddress (s : Snapshot) (a : Address) : Int :=
  match s.fileRegions.find? (·.coversAddress a) with
  | some r =>
    let o := r.offset + (a - r.address)
    if o.toNat < signBit then o.toNat else -1
  | none => -1

/-- The prototype recorded at the start of the function around an address, or at the address. -/
def signatureAt (s : Snapshot) (a : Address) : Option Signature :=
  let target := match s.functionAt a with
    | some f => f.start
    | none => a
  s.signatures.find? fun g => g.address == target

def namedType (s : Snapshot) (name : String) : Option HostType :=
  (s.types.find? fun t => t.name == name).map fun t => .named t.name t.size

def pointerTo (s : Snapshot) (t : HostType) : HostType :=
  .pointer (t.name ++ " *") (s.bitness / 8).toUInt64 t

/-- A type that is not in the library has the size of the item. -/
def itemType (s : Snapshot) (a : Address) : Option HostType := do
  let item ← s.itemAt a
  let name ← item.type
  return (s.namedType name).getD (.named name item.size)

def itemEnd (s : Snapshot) (a : Address) : Address :=
  ((s.itemAt a).bind Item.stop?).getD (Address.saturatingAdd a 1)

/-- The name of the first item there, or of the first function that starts there. -/
def nameAt (s : Snapshot) (a : Address) : Option String :=
  ((s.items.find? fun i => i.address == a).bind (·.name))
  <|> ((s.functions.find? fun f => f.start == a).bind (·.name))

def exportWith (s : Snapshot) (ordinal : UInt64) : Option ExportEntry :=
  s.exports.find? fun e => e.ordinal == ordinal

def lookups (s : Snapshot) : Lookups :=
  { addressOfOffset := s.addressOfOffset
    offsetOfAddress := s.offsetOfAddress
    signature := s.signatureAt
    segmentNamed := fun n => (s.segments.find? fun g => g.name == n).map s.segmentOf
    segmentAt := fun a => (s.segments.find? fun g => g.start ≤ a && a < g.stop).map s.segmentOf }

def view (s : Snapshot) (m : Image) : View :=
  { name := "snapshot"
    sdkVersion := s.sdkVersion
    appBitness := s.bitness
    is64Bit := s.bitness == 64
    is32Bit := s.bitness == 32
    bigEndian := s.bigEndian
    processor := s.processor
    minAddress := (s.minAddress <|> m.minStart?).getD 0
    maxAddress := (s.maxAddress <|> m.maxStop?).getD 0
    loaded := m.loaded
    byte := fun a => (m.byte? a).getD 0
    word := fun a => (m.readWord s.bigEndian a 2).toUInt16
    dword := fun a => (m.readWord s.bigEndian a 4).toUInt32
    qword := fun a => m.readWord s.bigEndian a 8
    bytes := m.read
    functionEntries := fun start stop =>
      (s.functions.filter (·.meets start stop)).map (·.start)
    functionAt := s.functionAt
    register := fun n => s.registers.find? fun r => sameLetters r.name n
    segmentCount := s.segments.length
    segment := fun i => s.segments[i]?.map s.segmentOf
    stringKind := fun a =>
      (((s.itemAt a).bind (·.stringWidth)).bind StringKind.ofBits?).getD .narrow
    stringLength := m.stringLength s.bigEndian
    stringContents := m.stringContents s.bigEndian
    namedType := s.namedType
    pointerTo := s.pointerTo
    itemType := s.itemType
    edgesFrom := fun a => s.edges.filter fun e => e.source == a
    edgesTo := fun a => s.edges.filter fun e => e.target == a
    itemHead := fun a => ((s.itemAt a).map (·.address)).getD a
    itemEnd := s.itemEnd
    nextHead := fun a limit => (s.items.map (·.address)).find? fun h => a < h && h < limit
    isCode := fun a => (s.itemAt a).any (·.isCode)
    nameAt := s.nameAt
    imports := s.imports
    exportCount := s.exports.length
    exportOrdinal := fun i => (s.exports[i]?.map (·.ordinal)).getD Address.bad
    exportAddress := fun o => ((s.exportWith o).map (·.address)).getD Address.bad
    exportName := fun o => ((s.exportWith o).map (·.name)).getD "" }

/-- The host that answers from the tables; its memory is the image. -/
def host (s : Snapshot) : Host Image :=
  { lookups := s.lookups
    view := s.view
    patch := Image.patch }

end Snapshot
end BinAtlas
