import BinAtlas.Yaml.Scalar
import BinAtlas.Yaml.Tag

/-! The tokens of a YAML text. Outside brackets the indentation opens and closes blocks. A token
turns out to be a key only when the colon after it is seen, so its place is remembered, and what
goes before it is put there then. A key that is remembered stands on one line and within 1024
bytes of its colon. Anchors are numbered as they come, and an alias has the number of the last anchor
of its name; tags are written out. -/

namespace BinAtlas.Yaml

inductive Token where
  | directive
  | documentStart
  | documentEnd
  | openSequence
  | closeSequence
  | openMapping
  | closeMapping
  | flowEntry
  | blockSequence
  | blockMapping
  | blockEnd
  | blockEntry
  | key
  | value
  | anchor (id : Nat)
  | alias (id : Nat)
  | tag (tag : Tag)
  | scalar (text : String) (style : Style)
  deriving DecidableEq

/-- Where a key may turn out to be: the number of the token, its place, and whether there must be
one. -/
structure KeyPlace where
  required : Bool
  token : Nat
  line : Nat
  column : Nat
  index : Nat

/-- The state of the scan. `brackets` are the possible keys of the open brackets, the innermost
first, and `key` that of the present level; `indents` are the columns of the open blocks. The names of
anchors are there with the number that each had last. -/
structure Scan where
  tokens : Array Token := #[]
  key : Option KeyPlace := none
  brackets : List (Option KeyPlace) := []
  indents : List Nat := []
  keyAllowed : Bool := true
  versioned : Bool := false
  handles : Handles := []
  anchors : List (String × Nat) := []

namespace Scan

def inFlow (s : Scan) : Bool := !s.brackets.isEmpty

/-- The column of the innermost block, or -1. -/
def indent (s : Scan) : Int :=
  match s.indents with
  | c :: _ => c
  | [] => -1

def emit (s : Scan) (t : Token) : Scan := { s with tokens := s.tokens.push t }

/-- Gives up the key of this level; that is refused if there must be one. -/
def dropKey? (s : Scan) : Option Scan :=
  match s.key with
  | some k => if k.required then none else some { s with key := none }
  | none => some s

/-- Remembers that the next token may be a key. -/
def saveKey? (s : Scan) (gs : Glyphs) : Option Scan :=
  match gs with
  | g :: _ =>
    if s.keyAllowed then do
      let s ← s.dropKey?
      let required := !s.inFlow && s.indent == g.column
      return { s with key := some ⟨required, s.tokens.size, g.line, g.column, g.index⟩ }
    else some s
  | [] => some s

/-- Whether a key cannot be one any more at the place of a character. -/
def KeyPlace.isStale (k : KeyPlace) (g : Glyph) : Bool :=
  k.line < g.line || k.index + 1024 < g.index

def refresh? (g : Glyph) : Option KeyPlace → Option (Option KeyPlace)
  | some k =>
    if KeyPlace.isStale k g then if k.required then none else some none else some (some k)
  | none => some none

/-- Gives up the keys that are stale. -/
def dropStale? (s : Scan) (gs : Glyphs) : Option Scan :=
  match gs with
  | g :: _ => do
    let key ← refresh? g s.key
    let brackets ← s.brackets.mapM (refresh? g)
    return { s with key, brackets }
  | [] => some s

/-- Opens a block at a column further in than the innermost one, in front of token `place`. -/
def openBlock (s : Scan) (column : Nat) (t : Token) (place : Nat) : Scan :=
  if !s.inFlow && s.indent < column then
    { s with indents := column :: s.indents, tokens := s.tokens.insertIdxIfInBounds place t }
  else s

/-- Closes the blocks further in than a column. -/
def closeBlocks (s : Scan) (column : Int) : Scan :=
  if s.inFlow then s
  else
    let (closed, kept) := s.indents.span fun (c : Nat) => column < c
    { s with indents := kept, tokens := closed.foldl (fun ts _ => ts.push .blockEnd) s.tokens }

/-- Skips blanks, comments and breaks, and a byte order mark at the start of a line; a key may
follow a break outside brackets. Tabs are blanks only where no key can stand. -/
def skip (flow allowed comment : Bool) : Glyphs → Glyphs × Bool
  | [] => ([], allowed)
  | g :: gs =>
    if comment && !endsLine g.char then skip flow allowed true gs
    else if g.char == '\uFEFF' && g.column == 0 then skip flow allowed false gs
    else if g.char == ' ' || (g.char == '\t' && (flow || !allowed)) then skip flow allowed false gs
    else if g.char == '#' then skip flow allowed true gs
    else if isBreak g.char then skip flow (allowed || !flow) false gs
    else (g :: gs, allowed)

def boundary? (s : Scan) (gs : Glyphs) (t : Token) : Option (Scan × Glyphs) := do
  let s ← (s.closeBlocks (-1)).dropKey?
  return ({ s with keyAllowed := false }.emit t, gs.drop 3)

/-- A version may be given once, and so may the meaning of a handle. -/
def directive? (s : Scan) (gs : Glyphs) : Option (Scan × Glyphs) := do
  let s ← (s.closeBlocks (-1)).dropKey?
  let (word, rest) := name gs.tail
  if !endsWord (peek rest) then none
  else
    let (s, rest) ←
      if word = "YAML" then
        if s.versioned then none
        else (version? rest).map fun rest => ({ s with versioned := true }, rest)
      else if word = "TAG" then do
        let (declared, rest) ← declaration? rest
        if (s.handles.lookup declared.1).isSome then none
        else some ({ s with handles := declared :: s.handles }, rest)
      else none
    let rest ← restOfLine? rest
    return ({ s with keyAllowed := false }.emit .directive, rest)

/-- The name of an anchor after its mark. -/
def anchorName? (gs : Glyphs) : Option (String × Glyphs) :=
  let (word, rest) := name gs
  if word = "" ∨ !endsName (peek rest) then none else some (word, rest)

/-- The number of an anchor is that of the names before it, whether its name is one of them or not. -/
def anchor? (s : Scan) (gs : Glyphs) : Option (Scan × Glyphs) := do
  let s ← s.saveKey? gs
  let (word, rest) ← anchorName? gs.tail
  let id := s.anchors.length
  let anchors := (word, id) :: s.anchors.filter fun p => p.1 != word
  return ({ s with keyAllowed := false, anchors }.emit (.anchor id), rest)

def alias? (s : Scan) (gs : Glyphs) : Option (Scan × Glyphs) := do
  let s ← s.saveKey? gs
  let (word, rest) ← anchorName? gs.tail
  let id ← s.anchors.lookup word
  return ({ s with keyAllowed := false }.emit (.alias id), rest)

def tag? (s : Scan) (gs : Glyphs) : Option (Scan × Glyphs) := do
  let s ← s.saveKey? gs
  let (tag, rest) ← Yaml.tag? s.handles gs.tail
  if endsWord (peek rest) || (s.inFlow && peek rest == ',') then
    return ({ s with keyAllowed := false }.emit (.tag tag), rest)
  else none

def openBracket? (s : Scan) (gs : Glyphs) (t : Token) : Option (Scan × Glyphs) := do
  let s ← s.saveKey? gs
  let s := { s with brackets := s.key :: s.brackets, key := none, keyAllowed := true }
  return (s.emit t, gs.tail)

def closeBracket? (s : Scan) (gs : Glyphs) (t : Token) : Option (Scan × Glyphs) := do
  let s ← s.dropKey?
  let s := match s.brackets with
    | key :: rest => { s with brackets := rest, key }
    | [] => s
  return ({ s with keyAllowed := false }.emit t, gs.tail)

def flowEntry? (s : Scan) (gs : Glyphs) : Option (Scan × Glyphs) := do
  let s ← s.dropKey?
  return ({ s with keyAllowed := true }.emit .flowEntry, gs.tail)

def blockEntry? (s : Scan) (gs : Glyphs) : Option (Scan × Glyphs) :=
  if !s.inFlow && !s.keyAllowed then none
  else do
    let s ← (s.openBlock (columnOf gs) .blockSequence s.tokens.size).dropKey?
    return ({ s with keyAllowed := true }.emit .blockEntry, gs.tail)

def key? (s : Scan) (gs : Glyphs) : Option (Scan × Glyphs) :=
  if !s.inFlow && !s.keyAllowed then none
  else do
    let s ← (s.openBlock (columnOf gs) .blockMapping s.tokens.size).dropKey?
    return ({ s with keyAllowed := !s.inFlow }.emit .key, gs.tail)

def value? (s : Scan) (gs : Glyphs) : Option (Scan × Glyphs) :=
  match s.key with
  | some k =>
    let s := { s with tokens := s.tokens.insertIdxIfInBounds k.token .key }
    let s := s.openBlock k.column .blockMapping k.token
    some ({ s with key := none, keyAllowed := false }.emit .value, gs.tail)
  | none =>
    if !s.inFlow && !s.keyAllowed then none
    else
      let s := s.openBlock (columnOf gs) .blockMapping s.tokens.size
      some ({ s with keyAllowed := !s.inFlow }.emit .value, gs.tail)

def scalarToken (text : List Char) (style : Style) : Token := .scalar (String.ofList text) style

def blockScalar? (s : Scan) (gs : Glyphs) (folded : Bool) : Option (Scan × Glyphs) := do
  let s ← s.dropKey?
  let (text, rest) ← block? folded s.indent gs.tail
  let style := if folded then .folded else .literal
  return ({ s with keyAllowed := true }.emit (scalarToken text style), rest)

def quotedScalar? (s : Scan) (gs : Glyphs) (single : Bool) : Option (Scan × Glyphs) := do
  let s ← s.saveKey? gs
  let (text, rest) ← quoted? single gs.tail
  return ({ s with keyAllowed := false }.emit (scalarToken text .quoted), rest)

def plainScalar? (s : Scan) (gs : Glyphs) : Option (Scan × Glyphs) := do
  let s ← s.saveKey? gs
  let p ← plain? s.inFlow (s.indent + 1) gs
  return ({ s with keyAllowed := p.broken }.emit (scalarToken p.text .plain), p.rest)

/-- Characters that start no plain scalar. -/
def isIndicator (c : Char) : Bool := "-?:,[]\x7b\x7d#&*!|>'\"%@\x60".toList.contains c

/-- Whether a plain scalar starts here. -/
def startsPlain (flow : Bool) (gs : Glyphs) : Bool :=
  let c := peek gs
  let next := peek gs.tail
  !(endsWord c || isIndicator c) || (c == '-' && !isBlank next)
    || (!flow && (c == '?' || c == ':') && !endsWord next)

/-- The next token of a text that does not start with a blank. -/
def token? (s : Scan) (gs : Glyphs) : Option (Scan × Glyphs) :=
  let c := peek gs
  let next := peek gs.tail
  if columnOf gs == 0 && c == '%' then s.directive? gs
  else if atMarks '-' gs then s.boundary? gs .documentStart
  else if atMarks '.' gs then s.boundary? gs .documentEnd
  else if c == '[' then s.openBracket? gs .openSequence
  else if c == '\x7b' then s.openBracket? gs .openMapping
  else if c == ']' then s.closeBracket? gs .closeSequence
  else if c == '\x7d' then s.closeBracket? gs .closeMapping
  else if c == ',' then s.flowEntry? gs
  else if c == '-' && endsWord next then s.blockEntry? gs
  else if c == '?' && (s.inFlow || endsWord next) then s.key? gs
  else if c == ':' && (s.inFlow || endsWord next) then s.value? gs
  else if c == '*' then s.alias? gs
  else if c == '&' then s.anchor? gs
  else if c == '!' then s.tag? gs
  else if c == '|' && !s.inFlow then s.blockScalar? gs false
  else if c == '>' && !s.inFlow then s.blockScalar? gs true
  else if c == '\'' then s.quotedScalar? gs true
  else if c == '"' then s.quotedScalar? gs false
  else if startsPlain s.inFlow gs then s.plainScalar? gs
  else none

/-- Reads at most `n` tokens up to the end of the text, where all blocks are closed. -/
def all? (n : Nat) (s : Scan) (gs : Glyphs) : Option (List Token) :=
  match n with
  | 0 => none
  | n + 1 => do
    let (gs, keyAllowed) := skip s.inFlow s.keyAllowed false gs
    let s ← { s with keyAllowed }.dropStale? gs
    let s := s.closeBlocks (columnOf gs)
    if peek gs == endMark then
      let s ← (s.closeBlocks (-1)).dropKey?
      return s.tokens.toList
    else
      let (s, gs) ← s.token? gs
      all? n s gs

end Scan

def Token.ofText? (text : String) : Option (List Token) := do
  let gs ← Glyphs.ofText? text
  Scan.all? (gs.length + 1) {} gs

end BinAtlas.Yaml
