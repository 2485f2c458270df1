import BinAtlas.Error
import BinAtlas.Image
import BinAtlas.Snapshot.Decode
import BinAtlas.Format

/-! Opening a snapshot: entries that cannot be are refused, and the tables that are searched by
address are put in order. -/

namespace BinAtlas

/-- A snapshot that was accepted: `tables` without memory, and the loaded bytes. -/
structure Stored where
  tables : Snapshot
  image : Image

namespace FileRegion

def fits (r : FileRegion) : Bool :=
  (Address.plus? r.address r.size.toNat).isSome && (Address.plus? r.offset r.size.toNat).isSome

end FileRegion

namespace Item

/-- An item takes up one byte at least. -/
def extent (i : Item) : UInt64 := if i.size = 0 then 1 else i.size

def stop? (i : Item) : Option Address := Address.plus? i.address i.extent.toNat

def covers (i : Item) (a : Address) : Bool := i.address ≤ a && a - i.address < i.extent

end Item

namespace Snapshot

/-- The first entry that cannot be, table after table. -/
def flaw? (s : Snapshot) : Option Unsound :=
  ((s.functions.find? fun f => f.stop < f.start).map fun f => .function f.start f.stop)
  <|> ((s.segments.find? fun g => g.stop < g.start).map fun g => .segment g.name)
  <|> ((s.memory.find? fun r => r.stop?.isNone).map fun r => .region r.start)
  <|> ((s.fileRegions.find? fun r => !r.fits).map fun r => .fileRegion r.address)
  <|> ((s.items.find? fun i => i.stop?.isNone).map fun i => .item i.address)

/-- Accepts a snapshot. Entries with the same start keep their order. -/
def load (s : Snapshot) : Except Error Stored :=
  match s.flaw? with
  | some what => .error (.unsound what)
  | none =>
    .ok
      { tables :=
          { s with
            functions := s.functions.mergeSort fun f g => f.start ≤ g.start
            items := s.items.mergeSort fun i j => i.address ≤ j.address
            memory := [] }
        image := s.memory.mergeSort fun r t => r.start ≤ t.start }

/-- Reads a snapshot from a text of a format. -/
def ofText (reader : Format → Reader) (format : Format) (text : String) : Except Error Snapshot :=
  match (reader format).record? decode? text with
  | some s => .ok s
  | none => .error (.malformed format)

/-- Reads and accepts a snapshot. -/
def loadText (reader : Format → Reader) (format : Format) (text : String) : Except Error Stored := do
  (← ofText reader format text).load

end Snapshot
end BinAtlas
