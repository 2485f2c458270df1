import BinAtlas.View.Functions

/-! Segments and what lies in them. -/

namespace BinAtlas

def Segment.size (g : Segment) : UInt64 := g.stop - g.start

def Segment.contains (g : Segment) (a : Address) : Bool := g.start ≤ a && a < g.stop

namespace View

/-- All segments in the host's order. A number without a segment is passed over. -/
def segments (v : View) : List Segment := (List.range v.segmentCount).filterMap v.segment

/-- The bytes of a segment, with zeros for those that are not loaded. -/
def segmentData (v : View) (g : Segment) : Except Error (List UInt8) :=
  v.getBytes g.start g.size.toNat (some 0)

def segmentFunctions (v : View) (g : Segment) : List (Except Error FunctionEntry) :=
  v.functions (some g.start) (some g.stop)

end View
end BinAtlas
