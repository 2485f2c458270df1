import BinAtlas.Numeral
import BinAtlas.Text.Wide
import BinAtlas.Json.Value

/-! The tokens of a JSON text. White space is the four characters of the format; a number ends
where no character can continue it; a string keeps a note if its escapes name half a surrogate
pair. -/

namespace BinAtlas.Json

/-- A string token without text is one whose escapes do not make characters. -/
inductive Token where
  | openList
  | closeList
  | openObject
  | closeObject
  | colon
  | comma
  | str (text : Option String)
  | scalar (value : Json)

namespace Token

def isSpace (c : Char) : Bool := c == ' ' || c == '\t' || c == '\n' || c == '\r'

/-- One element of a string: a character, or a unit of an escape with four digits. -/
inductive Piece where
  | char (c : Char)
  | unit (u : Nat)

def escaped? : Char → Option Char
  | '"' => some '"'
  | '\\' => some '\\'
  | '/' => some '/'
  | 'b' => some '\x08'
  | 'f' => some '\x0C'
  | 'n' => some '\n'
  | 'r' => some '\r'
  | 't' => some '\t'
  | _ => none

/-- The elements up to the closing quote, and what follows it. Control characters are refused. -/
def pieces? : List Char → Option (List Piece × List Char)
  | [] => none
  | '"' :: cs => some ([], cs)
  | '\\' :: 'u' :: a :: b :: c :: d :: cs => do
    let u ← Numeral.value? 16 [a, b, c, d]
    let (rest, cs) ← pieces? cs
    return (.unit u :: rest, cs)
  | '\\' :: e :: cs => do
    let c ← escaped? e
    let (rest, cs) ← pieces? cs
    return (.char c :: rest, cs)
  | c :: cs =>
    if c.toNat < 0x20 then none
    else do
      let (rest, cs) ← pieces? cs
      return (.char c :: rest, cs)

/-- The characters of a string: a high surrogate takes the low one after it. -/
def chars? : List Piece → Option (List Char)
  | [] => some []
  | .char c :: ps => (chars? ps).map (c :: ·)
  | .unit u :: .unit v :: ps =>
    if Utf16.isHigh u && Utf16.isLow v then (chars? ps).map (Utf16.pair u v :: ·)
    else if Utf16.isHigh u || Utf16.isLow u then none
    else (chars? (.unit v :: ps)).map (Char.ofNat u :: ·)
  | .unit u :: ps =>
    if Utf16.isHigh u || Utf16.isLow u then none
    else (chars? ps).map (Char.ofNat u :: ·)

/-- Digits at the front, and what follows them. -/
def digits (cs : List Char) : List Char × List Char :=
  (cs.takeWhile Char.isDigit, cs.dropWhile Char.isDigit)

def valueOf (ds : List Char) : Nat := (Numeral.value? 10 ds).getD 0

/-- The integer part: a zero alone, or digits that start with another one. -/
def whole? (cs : List Char) : Option (List Char × List Char) :=
  match digits cs with
  | ([], _) => none
  | (['0'], rest) => some (['0'], rest)
  | ('0' :: _, _) => none
  | found => some found

/-- A point and at least one digit, or nothing. -/
def fraction? : List Char → Option (Option (List Char) × List Char)
  | '.' :: cs =>
    match digits cs with
    | ([], _) => none
    | (ds, rest) => some (some ds, rest)
  | cs => some (none, cs)

def exponentDigits? (negative : Bool) (cs : List Char) : Option (Option Int × List Char) :=
  match digits cs with
  | ([], _) => none
  | (ds, rest) =>
    let n : Int := valueOf ds
    some (some (if negative then -n else n), rest)

/-- The letter of an exponent, a sign if there is one, and at least one digit, or nothing. -/
def exponent? : List Char → Option (Option Int × List Char)
  | e :: cs =>
    if e == 'e' || e == 'E' then
      match cs with
      | '-' :: ds => exponentDigits? true ds
      | '+' :: ds => exponentDigits? false ds
      | ds => exponentDigits? false ds
    else some (none, e :: cs)
  | [] => some (none, [])

def number? (negative : Bool) (cs : List Char) : Option (Number × List Char) := do
  let (whole, cs) ← whole? cs
  let (fraction, cs) ← fraction? cs
  let (exponent, cs) ← exponent? cs
  match fraction, exponent with
  | none, none => return (.integer negative (valueOf whole), cs)
  | fraction, exponent => return (.decimal negative whole (fraction.getD []) exponent, cs)

/-- The first token of a text that does not start with white space. -/
def first? : List Char → Option (Token × List Char)
  | '[' :: cs => some (.openList, cs)
  | ']' :: cs => some (.closeList, cs)
  | '\x7b' :: cs => some (.openObject, cs)
  | '\x7d' :: cs => some (.closeObject, cs)
  | ':' :: cs => some (.colon, cs)
  | ',' :: cs => some (.comma, cs)
  | 'n' :: 'u' :: 'l' :: 'l' :: cs => some (.scalar .null, cs)
  | 't' :: 'r' :: 'u' :: 'e' :: cs => some (.scalar (.bool true), cs)
  | 'f' :: 'a' :: 'l' :: 's' :: 'e' :: cs => some (.scalar (.bool false), cs)
  | '"' :: cs => (pieces? cs).map fun (ps, rest) => (.str ((chars? ps).map String.ofList), rest)
  | '-' :: cs => (number? true cs).map fun (n, rest) => (.scalar (.number n), rest)
  | cs => (number? false cs).map fun (n, rest) => (.scalar (.number n), rest)

/-- At most `n` tokens; each takes at least one character. -/
def scan? : Nat → List Char → Option (List Token)
  | n, cs =>
    match cs.dropWhile isSpace, n with
    | [], _ => some []
    | _, 0 => none
    | c :: cs, n + 1 => do
      let (token, rest) ← first? (c :: cs)
      return token :: (← scan? n rest)

def ofText? (text : String) : Option (List Token) :=
  let cs := text.toList
  scan? cs.length cs

end Token
end BinAtlas.Json
