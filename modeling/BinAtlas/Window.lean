import BinAtlas.View.Bytes

/-! A window: a range of addresses that is read and written like a file. The position counts from
the start of the range and may lie beyond its end, where nothing is read or written. -/

namespace BinAtlas

structure Window where
  start : Address
  stop : Address
  position : UInt64
  start_le_stop : start ≤ stop
  deriving DecidableEq

inductive WindowError where
  | database (e : Error)
  | unexpectedEnd
  | writeZero
  | badSeek

def WindowError.message : WindowError → String
  | .database e => e.message
  | .unexpectedEnd => "failed to fill whole buffer"
  | .writeZero => "failed to write whole buffer"
  | .badSeek => "invalid seek to a negative or overflowing position"

inductive SeekTarget where
  | start (offset : UInt64)
  | stop (distance : Int)
  | current (distance : Int)

namespace Window

def openOn (start stop : Address) : Except Error Window :=
  if h : start ≤ stop then .ok { start, stop, position := 0, start_le_stop := h }
  else .error (.invalidInput (.window start stop))

def size (w : Window) : UInt64 := w.stop - w.start

def isEmpty (w : Window) : Bool := w.start == w.stop

/-- The address of the next byte, or the last address of all. -/
def address (w : Window) : Address := Address.saturatingAdd w.start w.position

/-- The bytes from the position to the end. -/
def remaining (w : Window) : Nat := (Address.saturatingSub w.size w.position).toNat

def advance (w : Window) (n : Nat) : Window := { w with position := w.position + n.toUInt64 }

/-- Reads up to `n` bytes, with zeros for those that are not loaded. -/
def read (w : Window) (v : View) (n : Nat) : Except WindowError (List UInt8) × Window :=
  let count := min n w.remaining
  if count = 0 then (.ok [], w)
  else
    match v.getBytes w.address count (some 0) with
    | .error e => (.error (.database e), w)
    | .ok bytes => (.ok bytes, w.advance count)

/-- Reads until `n` bytes are there. Every read but the last takes one byte at least, so `turns`
need not be more than `n`. -/
def fill (v : View) : Nat → Nat → Window → Except WindowError (List UInt8) × Window
  | _, 0, w => (.ok [], w)
  | 0, _ + 1, w => (.error .unexpectedEnd, w)
  | turns + 1, n + 1, w =>
    match w.read v (n + 1) with
    | (.error e, w) => (.error e, w)
    | (.ok [], w) => (.error .unexpectedEnd, w)
    | (.ok (b :: bs), w) =>
      match fill v turns (n - bs.length) w with
      | (.error e, w) => (.error e, w)
      | (.ok rest, w) => (.ok (b :: bs ++ rest), w)

def readExact (w : Window) (v : View) (n : Nat) : Except WindowError (List UInt8) × Window :=
  fill v n n w

/-- Reads until nothing is left; `buffer i` is the size of the buffer of the i-th read less one. -/
def drain (v : View) (buffer : Nat → Nat) : Nat → Nat → Window →
    Except WindowError (List UInt8) × Window
  | 0, _, w => (.ok [], w)
  | turns + 1, i, w =>
    match w.read v (buffer i + 1) with
    | (.error e, w) => (.error e, w)
    | (.ok [], w) => (.ok [], w)
    | (.ok (b :: bs), w) =>
      match drain v buffer turns (i + 1) w with
      | (.error e, w) => (.error e, w)
      | (.ok rest, w) => (.ok (b :: bs ++ rest), w)

def readToEnd (w : Window) (v : View) (buffer : Nat → Nat) :
    Except WindowError (List UInt8) × Window :=
  drain v buffer (w.remaining + 1) 0 w

/-- Writes the part of the data that fits into the range, all of it or nothing; answers how much
that was. -/
def write {σ : Type} (w : Window) (h : Host σ) (m : σ) (data : List UInt8) :
    Except WindowError Nat × Window × σ :=
  let count := min data.length w.remaining
  if count = 0 then (.ok 0, w, m)
  else
    match h.patch m w.address (data.take count) with
    | (true, m) => (.ok count, w.advance count, m)
    | (false, m) => (.error (.database (.notFound (.written count w.address))), w, m)

/-- Writes until all the data is written. Every write but the last takes one byte at least, so
`turns` need not be more than there are bytes. -/
def pour {σ : Type} (h : Host σ) : Nat → List UInt8 → Window → σ →
    Except WindowError Unit × Window × σ
  | _, [], w, m => (.ok (), w, m)
  | 0, _ :: _, w, m => (.error .writeZero, w, m)
  | turns + 1, b :: bs, w, m =>
    match w.write h m (b :: bs) with
    | (.error e, w, m) => (.error e, w, m)
    | (.ok 0, w, m) => (.error .writeZero, w, m)
    | (.ok (n + 1), w, m) => pour h turns (bs.drop n) w m

def writeAll {σ : Type} (w : Window) (h : Host σ) (m : σ) (data : List UInt8) :
    Except WindowError Unit × Window × σ :=
  pour h data.length data w m

/-- Moves the position anywhere among the words; it stays where it was if there is no such place. -/
def seek (w : Window) : SeekTarget → Except WindowError UInt64 × Window
  | .start offset => (.ok offset, { w with position := offset })
  | .stop distance => moveTo w (Address.shift? w.size distance)
  | .current distance => moveTo w (Address.shift? w.position distance)
where
  moveTo (w : Window) : Option UInt64 → Except WindowError UInt64 × Window
    | some p => (.ok p, { w with position := p })
    | none => (.error .badSeek, w)

end Window
end BinAtlas
