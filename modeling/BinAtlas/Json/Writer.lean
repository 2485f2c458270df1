import BinAtlas.Numeral
import BinAtlas.Json.Value

/-! Writing JSON: on one line without blanks, or over several lines with two blanks per level. Only
quotes, backslashes and control characters are escaped. -/

namespace BinAtlas.Json

def escapeChar (c : Char) : List Char :=
  match c with
  | '"' => ['\\', '"']
  | '\\' => ['\\', '\\']
  | '\x08' => ['\\', 'b']
  | '\x0C' => ['\\', 'f']
  | '\n' => ['\\', 'n']
  | '\r' => ['\\', 'r']
  | '\t' => ['\\', 't']
  | c =>
    if c.toNat < 0x20 then '\\' :: 'u' :: (Numeral.hexDigits c.toNat).leftpad 4 '0' else [c]

def quoted (s : String) : String :=
  String.ofList ('"' :: s.toList.flatMap escapeChar ++ ['"'])

/-- The spelling the number was read with, up to the mark and sign of its exponent. -/
def Number.text : Number → String
  | .integer negative n => (if negative then "-" else "") ++ toString n
  | .decimal negative whole fraction exponent =>
    (if negative then "-" else "") ++ String.ofList whole
      ++ (if fraction.isEmpty then "" else "." ++ String.ofList fraction)
      ++ (match exponent with
        | none => ""
        | some e => "e" ++ (if e < 0 then "-" else "") ++ toString e.natAbs)

mutual

/-- One line, with the given spelling of numbers. -/
def compactWith (number : Number → String) : Json → String
  | .null => "null"
  | .bool true => "true"
  | .bool false => "false"
  | .number n => number n
  | .text s => quoted s
  | .list [] => "[]"
  | .list (v :: vs) => "[" ++ compactWith number v ++ compactItems number vs ++ "]"
  | .object [] => "\x7b\x7d"
  | .object ((k, v) :: fs) =>
    "\x7b" ++ quoted k ++ ":" ++ compactWith number v ++ compactFields number fs ++ "\x7d"
  | .spoiled => "null"

def compactItems (number : Number → String) : List Json → String
  | [] => ""
  | v :: vs => "," ++ compactWith number v ++ compactItems number vs

def compactFields (number : Number → String) : List (String × Json) → String
  | [] => ""
  | (k, v) :: fs =>
    "," ++ quoted k ++ ":" ++ compactWith number v ++ compactFields number fs

end

def compact (v : Json) : String := compactWith Number.text v

def newline (depth : Nat) : String := "\n" ++ String.ofList (List.replicate (2 * depth) ' ')

mutual

/-- Several lines; `depth` is the level of the line the value starts on. -/
def prettyAt (depth : Nat) : Json → String
  | .list [] => "[]"
  | .list (v :: vs) =>
    "[" ++ newline (depth + 1) ++ prettyAt (depth + 1) v ++ prettyItems (depth + 1) vs
      ++ newline depth ++ "]"
  | .object [] => "\x7b\x7d"
  | .object ((k, v) :: fs) =>
    "\x7b" ++ newline (depth + 1) ++ quoted k ++ ": " ++ prettyAt (depth + 1) v
      ++ prettyFields (depth + 1) fs ++ newline depth ++ "\x7d"
  | .null => "null"
  | .bool true => "true"
  | .bool false => "false"
  | .number n => n.text
  | .text s => quoted s
  | .spoiled => "null"

def prettyItems (depth : Nat) : List Json → String
  | [] => ""
  | v :: vs => "," ++ newline depth ++ prettyAt depth v ++ prettyItems depth vs

def prettyFields (depth : Nat) : List (String × Json) → String
  | [] => ""
  | (k, v) :: fs =>
    "," ++ newline depth ++ quoted k ++ ": " ++ prettyAt depth v ++ prettyFields depth fs

end

def pretty (v : Json) : String := prettyAt 0 v

end BinAtlas.Json
