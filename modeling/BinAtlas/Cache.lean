/-! A cache of bounded size. Every entry bears the time of its last use; when room is needed, the
entry with the earliest time goes. A cache of capacity zero keeps nothing. -/

namespace BinAtlas

structure Cache.Entry (κ ν : Type) where
  key : κ
  value : ν
  used : UInt64

structure Cache (κ ν : Type) where
  capacity : Nat
  clock : UInt64
  entries : List (Cache.Entry κ ν)

namespace Cache

variable {κ ν : Type}

def defaultCapacity : Nat := 1024

def empty (capacity : Nat) : Cache κ ν := { capacity, clock := 0, entries := [] }

def size (c : Cache κ ν) : Nat := c.entries.length

/-- The keys that are kept, each once. -/
def keys (c : Cache κ ν) : List κ := c.entries.map (·.key)

/-- Forgets all entries. The clock goes on. -/
def clear (c : Cache κ ν) : Cache κ ν := { c with entries := [] }

/-- The entry that was used longest ago. -/
def oldest? : List (Entry κ ν) → Option (Entry κ ν)
  | [] => none
  | e :: es =>
    match oldest? es with
    | none => some e
    | some f => if f.used < e.used then some f else some e

variable [DecidableEq κ]

def contains (c : Cache κ ν) (k : κ) : Bool := c.entries.any fun e => e.key == k

def without (k : κ) (es : List (Entry κ ν)) : List (Entry κ ν) := es.filter fun e => e.key != k

/-- Looks a key up. Finding it is a use of it. -/
def get (c : Cache κ ν) (k : κ) : Option ν × Cache κ ν :=
  match c.entries.find? fun e => e.key == k with
  | none => (none, c)
  | some e =>
    let now := c.clock + 1
    let entries := { e with used := now } :: without k c.entries
    (some e.value, { c with clock := now, entries })

/-- Drops the entry used longest ago. -/
def dropOldest (es : List (Entry κ ν)) : List (Entry κ ν) :=
  match oldest? es with
  | none => es
  | some e => without e.key es

def put (c : Cache κ ν) (k : κ) (v : ν) : Cache κ ν :=
  if c.capacity = 0 then c
  else
    let now := c.clock + 1
    let others :=
      if c.contains k then without k c.entries
      else if c.capacity ≤ c.size then dropOldest c.entries
      else c.entries
    { c with clock := now, entries := { key := k, value := v, used := now } :: others }

end Cache
end BinAtlas
