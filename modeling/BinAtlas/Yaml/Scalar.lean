import BinAtlas.Numeral
import BinAtlas.Yaml.Glyph

/-! The scalars of YAML: plain, in quotes, and blocks of lines. Line breaks inside plain and quoted
scalars are folded: one break is a blank, more are one break fewer. -/

namespace BinAtlas.Yaml

/-- How a scalar is written. -/
inductive Style where
  | plain
  | quoted
  | literal
  | folded
  deriving DecidableEq

/-- Blanks and breaks between two words. `first` is the first break and `more` the others. -/
structure Gap where
  blanks : List Char := []
  broken : Bool := false
  first : List Char := []
  more : List Char := []

/-- What a gap stands for in the text. -/
def Gap.text (gap : Gap) : List Char :=
  if gap.broken then
    if gap.first == ['\n'] then if gap.more.isEmpty then [' '] else gap.more
    else gap.first ++ gap.more
  else gap.blanks

/-- Reads a gap. A tab after a break and before column `indent` is refused. -/
def gap? (indent : Int) (gap : Gap) : Glyphs → Option (Gap × Glyphs)
  | [] => some (gap, [])
  | g :: gs =>
    if isBlank g.char then
      if gap.broken then
        if g.char == '\t' && (g.column : Int) < indent then none else gap? indent gap gs
      else gap? indent { gap with blanks := gap.blanks ++ [g.char] } gs
    else if isBreak g.char then
      if gap.broken then gap? indent { gap with more := gap.more ++ [g.char] } gs
      else gap? indent { broken := true, first := [g.char] } gs
    else some (gap, g :: gs)

def isFlowMark (c : Char) : Bool := c == ',' || c == '[' || c == ']' || c == '\x7b' || c == '\x7d'

/-- The characters of a plain scalar up to a blank, a break or a character that ends it. -/
def plainWord? (flow : Bool) : Glyphs → Option (List Char × Glyphs)
  | [] => some ([], [])
  | g :: gs =>
    let next := peek gs
    if endsWord g.char then some ([], g :: gs)
    else if flow && g.char == ':' && (isFlowMark next || next == '?') then none
    else if (g.char == ':' && endsWord next) || (flow && isFlowMark g.char) then some ([], g :: gs)
    else (plainWord? flow gs).map fun (cs, rest) => (g.char :: cs, rest)

/-- A scalar that was read: its text, whether a break came after it, and what follows. -/
structure PlainScalar where
  text : List Char
  broken : Bool
  rest : Glyphs

/-- What follows `gap` in a plain scalar, at most `n` words; the gap counts only before a word. -/
def plainFrom? (flow : Bool) (indent : Int) (n : Nat) (gap : Gap) (gs : Glyphs) :
    Option PlainScalar :=
  match n with
  | 0 => none
  | n + 1 =>
    if atBoundary gs || peek gs == '#' then some ⟨[], gap.broken, gs⟩
    else do
      let (word, rest) ← plainWord? flow gs
      let (text, gap) := if word.isEmpty then ([], gap) else (gap.text ++ word, {})
      if isBlank (peek rest) || isBreak (peek rest) then
        let (gap, rest) ← gap? indent gap rest
        if !flow && (columnOf rest : Int) < indent then some ⟨text, gap.broken, rest⟩
        else
          let more ← plainFrom? flow indent n gap rest
          return { more with text := text ++ more.text }
      else some ⟨text, gap.broken, rest⟩

/-- A plain scalar; outside brackets its lines start at column `indent` at least. -/
def plain? (flow : Bool) (indent : Int) (gs : Glyphs) : Option PlainScalar :=
  plainFrom? flow indent (gs.length + 1) {} gs

/-- The character of an escape of one letter. -/
def escape? : Char → Option Char
  | '0' => some '\x00'
  | 'a' => some '\x07'
  | 'b' => some '\x08'
  | 't' => some '\t'
  | '\t' => some '\t'
  | 'n' => some '\n'
  | 'v' => some '\x0B'
  | 'f' => some '\x0C'
  | 'r' => some '\r'
  | 'e' => some '\x1B'
  | ' ' => some ' '
  | '"' => some '"'
  | '/' => some '/'
  | '\\' => some '\\'
  | 'N' => some '\u0085'
  | '_' => some '\u00A0'
  | 'L' => some '\u2028'
  | 'P' => some '\u2029'
  | _ => none

/-- The number of digits that follow the letter of an escape. -/
def escapeDigits? : Char → Option Nat
  | 'x' => some 2
  | 'u' => some 4
  | 'U' => some 8
  | _ => none

/-- Inside an escape there are digits still owed. -/
inductive QuotePlace where
  | text
  | escape
  | digits (owed code : Nat)

/-- Characters in quotes up to a blank, a break or the closing quote. The flag says that the line
was continued by a backslash. -/
def quotedWord? (single : Bool) : QuotePlace → Glyphs → Option (List Char × Bool × Glyphs)
  | _, [] => none
  | .text, [g] => some ([], false, [g])
  | .text, g :: h :: gs =>
    if endsWord g.char then some ([], false, g :: h :: gs)
    else if single && g.char == '\'' then
      if h.char == '\'' then
        (quotedWord? single .text gs).map fun (cs, rest) => ('\'' :: cs, rest)
      else some ([], false, g :: h :: gs)
    else if !single && g.char == '"' then some ([], false, g :: h :: gs)
    else if !single && g.char == '\\' then quotedWord? single .escape (h :: gs)
    else (quotedWord? single .text (h :: gs)).map fun (cs, rest) => (g.char :: cs, rest)
  | .escape, g :: gs =>
    if isBreak g.char then some ([], true, gs)
    else
      match escapeDigits? g.char with
      | some n => quotedWord? single (.digits n 0) gs
      | none => do
        let c ← escape? g.char
        let (cs, rest) ← quotedWord? single .text gs
        return (c :: cs, rest)
  | .digits owed code, g :: gs => do
    let code := code * 16 + (← Numeral.digit? g.char)
    if 1 < owed then quotedWord? single (.digits (owed - 1) code) gs
    else if code.isValidChar then
      let (cs, rest) ← quotedWord? single .text gs
      return (Char.ofNat code :: cs, rest)
    else none

/-- The rest of a quoted scalar, at most `n` words. -/
def quotedFrom? (single : Bool) (n : Nat) (gs : Glyphs) : Option (List Char × Glyphs) :=
  match n with
  | 0 => none
  | n + 1 =>
    if atBoundary gs || peek gs == endMark then none
    else do
      let (word, continued, rest) ← quotedWord? single .text gs
      if peek rest == (if single then '\'' else '"') then some (word, rest.tail)
      else
        let (gap, rest) ← gap? 0 { broken := continued } rest
        let (text, rest) ← quotedFrom? single n rest
        return (word ++ gap.text ++ text, rest)

/-- A quoted scalar after its opening quote. -/
def quoted? (single : Bool) (gs : Glyphs) : Option (List Char × Glyphs) :=
  quotedFrom? single (gs.length + 1) gs

/-- What becomes of the breaks at the end of a block. -/
inductive Chomping where
  | strip
  | clip
  | keep

structure BlockHeader where
  chomping : Chomping := .clip
  increment : Nat := 0

def chomping? : Char → Option Chomping
  | '+' => some .keep
  | '-' => some .strip
  | _ => none

def increment? (c : Char) : Option Nat :=
  if '1' ≤ c ∧ c ≤ '9' then some (c.toNat - '0'.toNat) else none

/-- The signs after the mark of a block, in either order. -/
def blockHeader (gs : Glyphs) : BlockHeader × Glyphs :=
  match chomping? (peek gs), increment? (peek gs) with
  | some c, _ =>
    match increment? (peek gs.tail) with
    | some n => (⟨c, n⟩, gs.tail.tail)
    | none => (⟨c, 0⟩, gs.tail)
  | none, some n =>
    match chomping? (peek gs.tail) with
    | some c => (⟨c, n⟩, gs.tail.tail)
    | none => (⟨.clip, n⟩, gs.tail)
  | none, none => ({}, gs)

/-- Skips to the end of a line that holds nothing but blanks and a comment. -/
def restOfLine? (gs : Glyphs) : Option Glyphs :=
  let gs := gs.dropWhile fun g => isBlank g.char
  let gs := if peek gs == '#' then gs.dropWhile fun g => !endsLine g.char else gs
  if isBreak (peek gs) then some gs.tail
  else if peek gs == endMark then some gs
  else none

/-- Reads blank lines and the indentation of the next one. An indentation of zero is not known
yet. Answers the breaks and the widest indentation seen. -/
def blockBreaks? (indent : Nat) (breaks : List Char) (widest : Nat) :
    Glyphs → Option (List Char × Nat × Glyphs)
  | [] => some (breaks, widest, [])
  | g :: gs =>
    let inside := indent == 0 || g.column < indent
    if inside && g.char == ' ' then blockBreaks? indent breaks widest gs
    else
      let widest := max widest g.column
      if inside && g.char == '\t' then none
      else if isBreak g.char then blockBreaks? indent (breaks ++ [g.char]) widest gs
      else some (breaks, widest, g :: gs)

/-- What stands between two lines of a block: the break of the first one and those of the blank
lines after it, and whether the first one starts with a blank. -/
structure Seam where
  last : List Char
  trailing : List Char
  afterBlank : Bool

/-- What a seam stands for. In a folded block a break between two lines that do not start with a
blank is folded. -/
def Seam.text (s : Seam) (folded blank : Bool) : List Char :=
  if folded && s.last == ['\n'] && !s.afterBlank && !blank then
    if s.trailing.isEmpty then [' '] else s.trailing
  else s.last ++ s.trailing

/-- Reads at most `n` lines at an indentation, after a seam; answers the seam at their end too. -/
def blockLines? (folded : Bool) (indent n : Nat) (seam : Seam) (gs : Glyphs) :
    Option (List Char × Seam × Glyphs) :=
  match n with
  | 0 => none
  | n + 1 =>
    if columnOf gs == indent && peek gs != endMark then do
      let blank := isBlank (peek gs)
      let line := gs.takeWhile fun g => !endsLine g.char
      let rest := gs.dropWhile fun g => !endsLine g.char
      let (last, rest) := if isBreak (peek rest) then ([peek rest], rest.tail) else ([], rest)
      let (trailing, _, rest) ← blockBreaks? indent [] 0 rest
      let (text, final, rest) ← blockLines? folded indent n ⟨last, trailing, blank⟩ rest
      return (seam.text folded blank ++ line.map (·.char) ++ text, final, rest)
    else some ([], seam, gs)

/-- A block after its mark. `indent` is the indentation of what it stands in, or -1. -/
def block? (folded : Bool) (indent : Int) (gs : Glyphs) : Option (List Char × Glyphs) := do
  let (header, gs) := blockHeader gs
  let gs ← restOfLine? gs
  let given := if header.increment = 0 then 0 else (max indent 0).toNat + header.increment
  let (trailing, widest, gs) ← blockBreaks? given [] 0 gs
  let column := if given = 0 then max (max widest (indent + 1).toNat) 1 else given
  let (text, seam, gs) ← blockLines? folded column (gs.length + 1) ⟨[], trailing, false⟩ gs
  match header.chomping with
  | .strip => return (text, gs)
  | .clip => return (text ++ seam.last, gs)
  | .keep => return (text ++ seam.last ++ seam.trailing, gs)

end BinAtlas.Yaml
