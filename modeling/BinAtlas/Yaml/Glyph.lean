/-! The characters of a YAML text with their places. All line breaks of one kind are written as a
line feed, and a last character that no text contains marks the end. Columns count characters,
and so does a byte order mark at the front; the index counts the bytes of UTF-8. -/

namespace BinAtlas.Yaml

structure Glyph where
  char : Char
  line : Nat
  column : Nat
  index : Nat

abbrev Glyphs := List Glyph

/-- The mark after the last character. -/
def endMark : Char := '\x00'

/-- The characters that a text may contain. -/
def isPrintable (c : Char) : Bool :=
  let n := c.toNat
  n == 0x09 || n == 0x0A || n == 0x0D || (0x20 ≤ n && n ≤ 0x7E) || n == 0x85
    || (0xA0 ≤ n && n ≤ 0xFFFD) || 0x10000 ≤ n

/-- A carriage return, with a line feed or alone, and a next-line character are line feeds. -/
def unifyBreaks : List Char → List Char
  | [] => []
  | '\r' :: '\n' :: cs => '\n' :: unifyBreaks cs
  | '\r' :: cs => '\n' :: unifyBreaks cs
  | c :: cs => (if c == '\x85' then '\n' else c) :: unifyBreaks cs

def isBreak (c : Char) : Bool := c == '\n' || c == '\u2028' || c == '\u2029'

def isBlank (c : Char) : Bool := c == ' ' || c == '\t'

/-- A break, or the end. -/
def endsLine (c : Char) : Bool := isBreak c || c == endMark

/-- A blank, a break, or the end. -/
def endsWord (c : Char) : Bool := isBlank c || endsLine c

def place (line column index : Nat) : List Char → Glyphs
  | [] => [⟨endMark, line, column, index⟩]
  | c :: cs =>
    ⟨c, line, column, index⟩ ::
      (if isBreak c then place (line + 1) 0 (index + c.utf8Size) cs
       else place line (column + 1) (index + c.utf8Size) cs)

/-- The characters of a text, if it may contain all of them. -/
def Glyphs.ofText? (text : String) : Option Glyphs :=
  let cs := text.toList
  if cs.all isPrintable then some (place 0 0 0 (unifyBreaks cs)) else none

/-- The character in front. -/
def peek (gs : Glyphs) : Char :=
  match gs with
  | g :: _ => g.char
  | [] => endMark

def columnOf (gs : Glyphs) : Nat :=
  match gs with
  | g :: _ => g.column
  | [] => 0

/-- Whether three marks of the start or the end of a document stand at the start of the line. -/
def atMarks (mark : Char) (gs : Glyphs) : Bool :=
  match gs with
  | a :: b :: c :: rest =>
    a.column == 0 && a.char == mark && b.char == mark && c.char == mark && endsWord (peek rest)
  | _ => false

def atBoundary (gs : Glyphs) : Bool := atMarks '-' gs || atMarks '.' gs

end BinAtlas.Yaml
