import BinAtlas.Session
import BinAtlas.Failure
import BinAtlas.View.Segments
import BinAtlas.View.Symbols

/-! What can be asked of a session, and the answers. A run is a list of operations, each carried
out in the session that the one before it left. -/

namespace BinAtlas

inductive Direction where
  | outgoing
  | incoming
  deriving DecidableEq

/-- Operations on windows. -/
inductive WindowStep where
  | state
  | read (n : Nat)
  | readExact (n : Nat)
  | readToEnd
  | write (data : List UInt8)
  | writeAll (data : List UInt8)
  | flush
  | seek (target : SeekTarget)

inductive Operation where
  | clearCaches
  | info
  | describe
  | getByte (a : Address)
  | getWord (a : Address)
  | getDword (a : Address)
  | getQword (a : Address)
  | getBytes (a : Address) (n : Nat) (fill : Option UInt8)
  | writeBytes (a : Address) (data : List UInt8)
  | getVirtualAddress (o : UInt64)
  | getFileOffset (a : Address)
  | functions (start stop : Option Address)
  | collectFunctions (start stop : Option Address)
  | getFunction (a : Address)
  | functionContains (a : Address) (addresses : List Address)
  | functionsEqual (a b : Address)
  | functionSignature (a : Address)
  | functionLines (a : Address)
  | functionCallers (a : Address)
  | functionReferences (a : Address)
  | getSignature (a : Address)
  | getLine (a : Address)
  | lineReferences (a : Address) (direction : Direction)
  | getName (a : Address)
  | getRegister (name : String)
  | getVariable (a : Address)
  | getSegment (key : SegmentKey)
  | getSegmentBy (key : Json)
  | segmentsEqual (key other : Json)
  | segmentData (key : Json)
  | segmentFunctions (key : Json)
  | segmentContains (key : Json) (addresses : List Address)
  | segments
  | getString (a : Address) (length : Option Nat) (bits : Option UInt32)
  | getDataType (name : String)
  | references (a : Address) (direction : Direction)
  | collectReferences (a : Address) (direction : Direction)
  | imports
  | exports
  | getImport (name : String)
  | getExport (name : String)
  | openWindow (id : String) (start stop : Address)
  | copyWindow (id target : String)
  | onWindow (id : String) (step : WindowStep)

structure Info where
  bitSize : UInt32
  bigEndian : Bool
  minAddress : Address
  maxAddress : Address
  processor : String
  capacity : Nat
  deriving DecidableEq

/-- What a window says of itself. -/
structure WindowState where
  start : Address
  stop : Address
  size : UInt64
  isEmpty : Bool
  position : UInt64
  address : Address
  deriving DecidableEq

def Window.state (w : Window) : WindowState :=
  { start := w.start
    stop := w.stop
    size := w.size
    isEmpty := w.isEmpty
    position := w.position
    address := w.address }

inductive WindowAnswer where
  | done (r : Except WindowError Unit)
  | bytes (r : Except WindowError (List UInt8))
  | drained (r : Except WindowError (List UInt8))
  | written (r : Except WindowError Nat)
  | moved (r : Except WindowError UInt64)

inductive Answer where
  | done (r : Except Error Unit)
  | info (i : Info)
  | text (s : String)
  | word (r : Except Error UInt64)
  | bytes (r : Except Error (List UInt8))
  | flag (r : Except Error Bool)
  | flags (r : Except Error (List Bool))
  | function (r : Except Error Function)
  | functions (l : List (Except Error Function))
  | functionsOf (r : Except Error (List (Except Error Function)))
  | collectedFunctions (r : Except Failure (List Function))
  | signature (r : Except Error Signature)
  | line (l : Line)
  | lines (r : Except Error (List Line))
  | references (l : List (Except Error Reference))
  | referencesOf (r : Except Error (List (Except Error Reference)))
  | collectedReferences (r : Except Failure (List Reference))
  | name (r : Except Error String)
  | register (r : Except Error Register)
  | variable (r : Except Error Variable)
  | segment (r : Except Error Segment)
  | segments (l : List Segment)
  | dataType (r : Except Error DataType)
  | imports (l : List Import)
  | exports (l : List Export)
  | importOf (r : Except Error Import)
  | exportOf (r : Except Error Export)
  | refused (e : Error)
  | window (r : WindowAnswer) (state : WindowState)
  | noWindow

namespace View

def references (v : View) (a : Address) : Direction → List (Except Error Reference)
  | .outgoing => v.referencesFrom a
  | .incoming => v.referencesTo a

/-- All functions of a range, or the first error. -/
def collectFunctions (v : View) (start stop : Option Address) : Except Failure (List Function) :=
  match (v.functions start stop).mapM id with
  | .ok l => .ok (l.map v.shown)
  | .error e => .error (.enumerating e)

/-- All references at an address, or the first error. -/
def collectReferences (v : View) (a : Address) (d : Direction) : Except Failure (List Reference) :=
  match (v.references a d).mapM id with
  | .ok l => .ok l
  | .error e => .error (.classifying a e)

end View

namespace Session

variable {σ : Type}

/-- An answer that leaves the session as it is. -/
def look {α : Type} (answer : View → α) : Action σ α := do return answer (← get).view

def getSegmentBy (key : Json) : Action σ (Except Error Segment) := do
  match SegmentKey.ofJson key with
  | .ok key => getSegment key
  | .error e => return .error e

def getInfo : Action σ Info := do
  let bitSize ← getBitSize
  let bigEndian ← getBigEndian
  let minAddress ← look (·.minAddress)
  let maxAddress ← look (·.maxAddress)
  let processor ← getProcessor
  let capacity := (← get).capacity
  return { bitSize, bigEndian, minAddress, maxAddress, processor, capacity }

/-- Text of a session for people who look for faults. -/
def description (s : Session σ) : String :=
  s!"Database \x7b host: \"{s.view.name}\", cache_capacity: {s.capacity} \x7d"

/-- Carries out one step on a window. The buffers of a read to the end have 8192 bytes. -/
def stepWindow (w : Window) : WindowStep → Action σ (WindowAnswer × Window)
  | .state => return (.done (.ok ()), w)
  | .flush => return (.done (.ok ()), w)
  | .read n => do
    let (r, w) := w.read (← get).view n
    return (.bytes r, w)
  | .readExact n => do
    let (r, w) := w.readExact (← get).view n
    return (.bytes r, w)
  | .readToEnd => do
    let (r, w) := w.readToEnd (← get).view fun _ => 8191
    return (.drained r, w)
  | .write data => fun s =>
    let (r, w, m) := w.write s.host s.memory data
    ((.written r, w), { s with memory := m })
  | .writeAll data => fun s =>
    let (r, w, m) := w.writeAll s.host s.memory data
    ((.done r, w), { s with memory := m })
  | .seek target =>
    let (r, w) := w.seek target
    return (.moved r, w)

/-- Carries out a step on the window of a name and keeps it as it is then. -/
def onWindow (id : String) (step : WindowStep) : Action σ Answer := do
  match (← get).window? id with
  | none => return .noWindow
  | some w =>
    let (r, w) ← stepWindow w step
    setWindow id w
    return .window r w.state

/-- Opens a window under a name. If that is refused, an older one of that name stays. -/
def openWindow (id : String) (start stop : Address) : Action σ Answer := do
  match Window.openOn start stop with
  | .error e => return .refused e
  | .ok w =>
    setWindow id w
    return .window (.done (.ok ())) w.state

/-- Keeps a second window, with the position of the first. -/
def copyWindow (id target : String) : Action σ Answer := do
  match (← get).window? id with
  | none => return .noWindow
  | some w =>
    setWindow target w
    return .window (.done (.ok ())) w.state

def perform : Operation → Action σ Answer
  | .clearCaches => do
    clearCaches
    return .done (.ok ())
  | .info => return .info (← getInfo)
  | .describe => return .text (← get).description
  | .getByte a => look fun v => .word ((v.getByte a).map (·.toUInt64))
  | .getWord a => look fun v => .word ((v.getWord a).map (·.toUInt64))
  | .getDword a => look fun v => .word ((v.getDword a).map (·.toUInt64))
  | .getQword a => look fun v => .word (v.getQword a)
  | .getBytes a n fill => look fun v => .bytes (v.getBytes a n fill)
  | .writeBytes a data => return .done (← writeBytes a data)
  | .getVirtualAddress o => return .word (← getVirtualAddress o)
  | .getFileOffset a => return .word (← getFileOffset a)
  | .functions start stop => look fun v => .functions ((v.functions start stop).map (·.map v.shown))
  | .collectFunctions start stop => look fun v =>
    .collectedFunctions (v.collectFunctions start stop)
  | .getFunction a => look fun v => .function ((v.getFunction a).map v.shown)
  | .functionContains a addresses => look fun v =>
    .flags ((v.getFunction a).map fun f => addresses.map f.contains)
  | .functionsEqual a b => look fun v => .flag do
    let f ← v.getFunction a
    let g ← v.getFunction b
    return f == g
  | .functionSignature a => do
    match (← get).view.getFunction a with
    | .error e => return .signature (.error e)
    | .ok f => return .signature (← getSignature f.start)
  | .functionLines a => look fun v => .lines ((v.getFunction a).map v.functionLines)
  | .functionCallers a => look fun v =>
    .functionsOf ((v.getFunction a).map fun f => (v.callers f).map (·.map v.shown))
  | .functionReferences a => look fun v =>
    .referencesOf ((v.getFunction a).map v.functionReferences)
  | .getSignature a => return .signature (← getSignature a)
  | .getLine a => look fun v => .line (v.getLine a)
  | .lineReferences a d => look fun v => .references (v.references (v.itemHead a) d)
  | .getName a => look fun v => .name (v.getName a)
  | .getRegister n => look fun v => .register (v.getRegister n)
  | .getVariable a => look fun v => .variable (v.getVariable a)
  | .getSegment key => return .segment (← getSegment key)
  | .getSegmentBy key => return .segment (← getSegmentBy key)
  | .segmentsEqual key other => do
    let other ← getSegmentBy other
    let segment ← getSegmentBy key
    return .flag do
      let g ← segment
      let h ← other
      return g == h
  | .segmentData key => do
    let segment ← getSegmentBy key
    look fun v => .bytes (segment.bind v.segmentData)
  | .segmentFunctions key => do
    let segment ← getSegmentBy key
    look fun v => .functionsOf (segment.map fun g => (v.segmentFunctions g).map (·.map v.shown))
  | .segmentContains key addresses => do
    let segment ← getSegmentBy key
    return .flags (segment.map fun g => addresses.map g.contains)
  | .segments => look fun v => .segments v.segments
  | .getString a length bits => look fun v => .bytes (v.getString a length bits)
  | .getDataType n => look fun v => .dataType (v.getDataType n)
  | .references a d => look fun v => .references (v.references a d)
  | .collectReferences a d => look fun v => .collectedReferences (v.collectReferences a d)
  | .imports => look fun v => .imports v.imports
  | .exports => look fun v => .exports v.exports
  | .getImport n => look fun v => .importOf (v.getImport n)
  | .getExport n => look fun v => .exportOf (v.getExport n)
  | .openWindow id start stop => openWindow id start stop
  | .copyWindow id target => copyWindow id target
  | .onWindow id step => onWindow id step

/-- Carries out operations one after another. -/
def run (s : Session σ) : List Operation → List Answer × Session σ
  | [] => ([], s)
  | op :: ops =>
    let (answer, s) := perform op s
    let (answers, s) := run s ops
    (answer :: answers, s)

end Session
end BinAtlas
