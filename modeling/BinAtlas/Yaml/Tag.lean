import BinAtlas.Numeral
import BinAtlas.Text.Utf8
import BinAtlas.Yaml.Glyph

/-! Names, tags and the values of directives in YAML. A tag is written in full, or as a handle with a
suffix. A handle stands for what a tag begins with; two of them have a meaning without a directive. -/

namespace BinAtlas.Yaml

/-- The octets of a tag. -/
abbrev Tag := List UInt8

namespace Tag

def ofText (text : String) : Tag := Utf8.encode text.toList

/-- A tag of YAML itself. -/
def core (name : String) : Tag := ofText ("tag:yaml.org,2002:" ++ name)

/-- The tag of an exclamation mark alone, which says of a scalar nothing. -/
def unspecific : Tag := ofText "!"

/-- A tag ends before an octet of zero. -/
def cut (octets : Tag) : Tag := octets.takeWhile (· != 0)

end Tag

/-- What handles stand for. -/
abbrev Handles := List (String × Tag)

/-- The handles that need no directive. -/
def Handles.standard : Handles := [("!", Tag.unspecific), ("!!", Tag.core "")]

/-- A directive may give a meaning of its own to every handle. -/
def Handles.stem? (declared : Handles) (handle : String) : Option Tag :=
  declared.lookup handle <|> standard.lookup handle

/-- A character of a name. -/
def isNameChar (c : Char) : Bool := c.isAlphanum || c == '-' || c == '_'

/-- The name in front, if there is one, and what follows. -/
def name (gs : Glyphs) : String × Glyphs :=
  let (cs, rest) := gs.span fun g => isNameChar g.char
  (String.ofList (cs.map (·.char)), rest)

/-- Whether the name of an anchor may end before a character. -/
def endsName (c : Char) : Bool := endsWord c || "?:,]\x7d%@\x60".toList.contains c

/-- A character of a tag. Brackets and commas may stand only where the tag is marked off. -/
def isTagChar (marked : Bool) (c : Char) : Bool :=
  isNameChar c || ";/?:@&=+$.!~*'()".toList.contains c || (marked && ",[]".toList.contains c)

/-- The number of octets in a character that begins with this one. -/
def octets? (lead : Nat) : Option Nat :=
  if lead < 0x80 then some 1
  else if 0xC0 ≤ lead ∧ lead < 0xE0 then some 2
  else if 0xE0 ≤ lead ∧ lead < 0xF0 then some 3
  else if 0xF0 ≤ lead ∧ lead < 0xF8 then some 4
  else none

/-- The octets of a tag, where `owed` of them are still to come of a character. Octets may be written as
two digits after a percent sign. -/
def octetsFrom? (marked : Bool) (owed : Nat) : Glyphs → Option (Tag × Glyphs)
  | ⟨'%', _, _, _⟩ :: high :: low :: gs => do
    let octet := (← Numeral.digit? high.char) * 16 + (← Numeral.digit? low.char)
    let owed ← if owed = 0 then octets? octet else if octet / 64 = 2 then some owed else none
    let (octets, rest) ← octetsFrom? marked (owed - 1) gs
    return (octet.toUInt8 :: octets, rest)
  | g :: gs =>
    if owed ≠ 0 ∨ g.char = '%' then none
    else if isTagChar marked g.char then do
      let (octets, rest) ← octetsFrom? marked 0 gs
      return (g.char.toNat.toUInt8 :: octets, rest)
    else some ([], g :: gs)
  | [] => none

/-- One octet of a tag or more. -/
def octetRun? (marked : Bool) (gs : Glyphs) : Option (Tag × Glyphs) := do
  let (octets, rest) ← octetsFrom? marked 0 gs
  if octets.isEmpty then none else some (octets.cut, rest)

/-- A tag after its first exclamation mark. Without another one the handle is that mark alone. -/
def tag? (declared : Handles) (gs : Glyphs) : Option (Tag × Glyphs) := do
  if peek gs == '<' then
    let (tag, rest) ← octetRun? true gs.tail
    if peek rest == '>' then some (tag, rest.tail) else none
  else
    let (word, rest) := name gs
    if peek rest == '!' then
      let (suffix, rest) ← octetRun? false rest.tail
      return ((← declared.stem? s!"!{word}!") ++ suffix, rest)
    else
      let (octets, rest) ← octetsFrom? false 0 rest
      let suffix := Tag.cut (Tag.ofText word ++ octets)
      if suffix.isEmpty then some (Tag.unspecific, rest)
      else return ((← declared.stem? "!") ++ suffix, rest)

def skipBlanks (gs : Glyphs) : Glyphs := gs.dropWhile fun g => isBlank g.char

/-- A number of nine digits at most. -/
def versionPart? (gs : Glyphs) : Option (Nat × Glyphs) := do
  let (digits, rest) := gs.span fun g => g.char.isDigit
  let n ← Numeral.value? 10 (digits.map (·.char))
  if digits.length ≤ 9 then some (n, rest) else none

/-- What follows a version that is understood. -/
def version? (gs : Glyphs) : Option Glyphs := do
  let (major, rest) ← versionPart? (skipBlanks gs)
  if peek rest == '.' then
    let (minor, rest) ← versionPart? rest.tail
    if major = 1 ∧ (minor = 1 ∨ minor = 2) then some rest else none
  else none

/-- A handle with what it stands for. -/
def declaration? (gs : Glyphs) : Option ((String × Tag) × Glyphs) := do
  let gs := skipBlanks gs
  if peek gs != '!' then none
  else
    let (word, rest) := name gs.tail
    let (handle, rest) ←
      if peek rest == '!' then some (s!"!{word}!", rest.tail)
      else if word = "" then some ("!", rest)
      else none
    if isBlank (peek rest) then
      let (stem, rest) ← octetRun? true (skipBlanks rest)
      if endsWord (peek rest) then some ((handle, stem), rest) else none
    else none

end BinAtlas.Yaml
