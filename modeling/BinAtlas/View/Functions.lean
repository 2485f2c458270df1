import BinAtlas.View.Listing
import BinAtlas.Numeral

/-! Functions: enumeration over a range, bodies, names and callers. -/

namespace BinAtlas

/-- A function with the name it is shown under. -/
structure Function where
  start : Address
  stop : Address
  name : String
  deriving DecidableEq

def FunctionEntry.contains (f : FunctionEntry) (a : Address) : Bool := f.start ≤ a && a < f.stop

namespace View

def getFunction (v : View) (a : Address) : Except Error FunctionEntry :=
  match v.functionAt a with
  | some f => .ok f
  | none => .error (.notFound (.function a))

/-- The functions with an entry in a range, in the host's order. One that begins before the range
is left out even if it reaches into it. -/
def functions (v : View) (start stop : Option Address) : List (Except Error FunctionEntry) :=
  ((v.functionEntries start stop).filter fun e => start.all (· ≤ e)).map v.getFunction

/-- The function's own name, else the name at its start, else one made of its start. -/
def functionName (v : View) (f : FunctionEntry) : String :=
  match f.name.filter (· ≠ "") <|> v.name? f.start with
  | some n => n
  | none => "sub_" ++ Numeral.hexUpper f.start.toNat

def shown (v : View) (f : FunctionEntry) : Function :=
  { start := f.start, stop := f.stop, name := v.functionName f }

/-- An address and the heads after it that lie before `stop`, at most `n` of them. -/
def headsFrom (v : View) (stop : Address) : Nat → Address → List Address
  | 0, a => [a]
  | n + 1, a =>
    match v.nextHead a stop with
    | none => [a]
    | some b => a :: v.headsFrom stop n b

/-- The heads of a body. There are no more of them than bytes. -/
def heads (v : View) (f : FunctionEntry) : List Address :=
  v.headsFrom f.stop (f.stop.toNat - f.start.toNat) f.start

def functionLines (v : View) (f : FunctionEntry) : List Line := (v.heads f).map v.getLine

/-- The functions that call a function. A call from outside all functions is passed over; a
reference that cannot be classified is not. -/
def callers (v : View) (f : FunctionEntry) : List (Except Error FunctionEntry) :=
  (v.referencesTo f.start).filterMap fun r =>
    match r with
    | .ok r =>
      if r.kind == .codeCall then
        match v.functionAt r.source with
        | some g => some (.ok g)
        | none => none
      else none
    | .error e => some (.error e)

/-- The references that leave the lines of a body. -/
def functionReferences (v : View) (f : FunctionEntry) : List (Except Error Reference) :=
  (v.heads f).flatMap fun a => v.referencesFrom (v.itemHead a)

end View
end BinAtlas
