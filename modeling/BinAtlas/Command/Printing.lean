import BinAtlas.Failure
import BinAtlas.Json.Value

/-! Output as it comes about: a task prints one line after another and may fail between them. Lines that
are out stay out. -/

namespace BinAtlas

/-- A task that starts from the lines already printed, the last one first. -/
abbrev Printing (α : Type) := ExceptT Failure (StateM (List String)) α

namespace Printing

variable {α : Type}

def println (line : String) : Printing Unit := modify (line :: ·)

/-- Goes on with a result, or fails for its cause. -/
def attempt (r : Except Failure α) : Printing α := ExceptT.mk (pure r)

/-- Goes on with the answer to a query, or fails. -/
def query (r : Except Error α) : Printing α := attempt (r.mapError .query)

/-- Prints a value as JSON, or fails if it cannot be written. -/
def printJson (pretty : Json → Except String String) (value : Json) : Printing Unit := do
  println (← attempt ((pretty value).mapError .unprintable))

/-- A heading with a count, and a line for each element. -/
def printListing (heading : String) (line : α → String) (l : List α) : Printing Unit := do
  println s!"{heading} ({l.length}):"
  if l.isEmpty then println "  (none)"
  else l.forM fun a => println ("  - " ++ line a)

/-- What a task prints, each line with its end, and whether it comes to its own. -/
def outcome (task : Printing Unit) : Except Failure Unit × String :=
  let (result, printed) := task []
  (result, String.join (printed.reverse.map (· ++ "\n")))

end Printing
end BinAtlas
