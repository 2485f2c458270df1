import BinAtlas.Yaml.Token

/-! The value of a YAML text: one document of scalars, sequences and mappings. A node that is left
out is an empty plain scalar. In front of a node there may be an anchor and a tag, and in its place an
alias. -/

namespace BinAtlas.Yaml

inductive Node where
  | scalar (text : String) (style : Style) (tag : Option Tag)
  | sequence (items : List Node)
  | mapping (entries : List (Node × Node))
  | anchored (id : Nat) (node : Node)
  | alias (id : Nat)

/-- What stands in front of a node. -/
structure Properties where
  anchor : Option Nat := none
  tag : Option Tag := none

namespace Properties

/-- The properties in front, in either order. -/
def take : List Token → Properties × List Token
  | .anchor id :: .tag tag :: ts => ({ anchor := some id, tag := some tag }, ts)
  | .tag tag :: .anchor id :: ts => ({ anchor := some id, tag := some tag }, ts)
  | .anchor id :: ts => ({ anchor := some id }, ts)
  | .tag tag :: ts => ({ tag := some tag }, ts)
  | ts => ({}, ts)

def mark (p : Properties) (node : Node) : Node :=
  match p.anchor with
  | some id => .anchored id node
  | none => node

def scalar (p : Properties) (text : String) (style : Style) : Node :=
  p.mark (.scalar text style (p.tag.filter (· ≠ Tag.unspecific)))

/-- There may be properties with nothing after them. -/
def alone? (p : Properties) : Option Node :=
  if p.anchor.isSome || p.tag.isSome then some (p.mark (.scalar "" .plain p.tag)) else none

end Properties

namespace Node

def empty : Node := .scalar "" .plain none

/-- Whether the next token is one of some. -/
def sees (ts : List Token) (among : List Token) : Bool :=
  match ts with
  | t :: _ => among.contains t
  | [] => false

mutual

/-- A node, where a block or only a flow node may stand. A list may begin without indentation
where `bare`. Every call has one turn less to give on. -/
def node? (n : Nat) (block bare : Bool) (ts : List Token) : Option (Node × List Token) :=
  match n with
  | 0 => none
  | n + 1 =>
    match ts with
    | .alias id :: ts => some (.alias id, ts)
    | ts =>
      let (p, ts) := Properties.take ts
      match ts with
      | .scalar text style :: ts => some (p.scalar text style, ts)
      | .openSequence :: ts => do
        let (items, ts) ← flowItems? n true ts
        return (p.mark (.sequence items), ts)
      | .openMapping :: ts => do
        let (entries, ts) ← flowEntries? n true ts
        return (p.mark (.mapping entries), ts)
      | .blockSequence :: rest =>
        if block then do
          let (items, ts) ← blockItems? n rest
          return (p.mark (.sequence items), ts)
        else p.alone?.map fun node => (node, ts)
      | .blockMapping :: rest =>
        if block then do
          let (entries, ts) ← blockEntries? n rest
          return (p.mark (.mapping entries), ts)
        else p.alone?.map fun node => (node, ts)
      | .blockEntry :: _ =>
        if bare then do
          let (items, ts) ← bareItems? n ts
          return (p.mark (.sequence items), ts)
        else p.alone?.map fun node => (node, ts)
      | ts => p.alone?.map fun node => (node, ts)

/-- A node, or nothing before one of some tokens. -/
def nodeBefore? (n : Nat) (block bare : Bool) (among : List Token) (ts : List Token) :
    Option (Node × List Token) :=
  match n with
  | 0 => none
  | n + 1 => if sees ts among then some (empty, ts) else node? n block bare ts

/-- The items of an indented list, up to its end. -/
def blockItems? (n : Nat) (ts : List Token) : Option (List Node × List Token) :=
  match n with
  | 0 => none
  | n + 1 =>
    match ts with
    | .blockEntry :: ts => do
      let (item, ts) ← nodeBefore? n true false [.blockEntry, .blockEnd] ts
      let (items, ts) ← blockItems? n ts
      return (item :: items, ts)
    | .blockEnd :: ts => some ([], ts)
    | _ => none

/-- The items of a list that is not indented; the mapping around it goes on after it. -/
def bareItems? (n : Nat) (ts : List Token) : Option (List Node × List Token) :=
  match n with
  | 0 => none
  | n + 1 =>
    match ts with
    | .blockEntry :: ts => do
      let (item, ts) ← nodeBefore? n true false [.blockEntry, .key, .value, .blockEnd] ts
      let (items, ts) ← bareItems? n ts
      return (item :: items, ts)
    | ts => some ([], ts)

/-- The value after a key in a block. -/
def blockValue? (n : Nat) (ts : List Token) : Option (Node × List Token) :=
  match n with
  | 0 => none
  | n + 1 =>
    match ts with
    | .value :: ts => nodeBefore? n true true [.key, .value, .blockEnd] ts
    | ts => some (empty, ts)

def blockEntries? (n : Nat) (ts : List Token) : Option (List (Node × Node) × List Token) :=
  match n with
  | 0 => none
  | n + 1 =>
    match ts with
    | .key :: ts => do
      let (key, ts) ← nodeBefore? n true true [.key, .value, .blockEnd] ts
      let (value, ts) ← blockValue? n ts
      let (entries, ts) ← blockEntries? n ts
      return ((key, value) :: entries, ts)
    | .blockEnd :: ts => some ([], ts)
    | _ => none

/-- One pair in brackets, after the mark of its key. -/
def pair? (n : Nat) (ts : List Token) : Option (Node × List Token) :=
  match n with
  | 0 => none
  | n + 1 => do
    let (key, ts) ←
      if sees ts [.value, .flowEntry, .closeSequence] then some (empty, ts.tail)
      else node? n false false ts
    match ts with
    | .value :: ts =>
      let (value, ts) ← nodeBefore? n false false [.flowEntry, .closeSequence] ts
      return (.mapping [(key, value)], ts)
    | ts => return (.mapping [(key, empty)], ts)

/-- The items in brackets, up to the closing one; all but the first come after a comma, and the
last may be followed by one. -/
def flowItems? (n : Nat) (first : Bool) (ts : List Token) : Option (List Node × List Token) :=
  match n with
  | 0 => none
  | n + 1 => do
    match ts with
    | .closeSequence :: ts => return ([], ts)
    | ts =>
      let ts ←
        if first then some ts
        else match ts with
          | .flowEntry :: ts => some ts
          | _ => none
      match ts with
      | .closeSequence :: ts => return ([], ts)
      | .key :: ts =>
        let (item, ts) ← pair? n ts
        let (items, ts) ← flowItems? n false ts
        return (item :: items, ts)
      | ts =>
        let (item, ts) ← node? n false false ts
        let (items, ts) ← flowItems? n false ts
        return (item :: items, ts)

/-- The value after a key in braces. -/
def flowValue? (n : Nat) (ts : List Token) : Option (Node × List Token) :=
  match n with
  | 0 => none
  | n + 1 =>
    match ts with
    | .value :: ts => nodeBefore? n false false [.flowEntry, .closeMapping] ts
    | ts => some (empty, ts)

def flowEntries? (n : Nat) (first : Bool) (ts : List Token) :
    Option (List (Node × Node) × List Token) :=
  match n with
  | 0 => none
  | n + 1 => do
    match ts with
    | .closeMapping :: ts => return ([], ts)
    | ts =>
      let ts ←
        if first then some ts
        else match ts with
          | .flowEntry :: ts => some ts
          | _ => none
      match ts with
      | .closeMapping :: ts => return ([], ts)
      | .key :: ts =>
        let (key, ts) ← nodeBefore? n false false [.value, .flowEntry, .closeMapping] ts
        let (value, ts) ← flowValue? n ts
        let (entries, ts) ← flowEntries? n false ts
        return ((key, value) :: entries, ts)
      | ts =>
        let (key, ts) ← node? n false false ts
        let (entries, ts) ← flowEntries? n false ts
        return ((key, empty) :: entries, ts)

end

/-- A call that takes no token is followed by one that does, so three turns for each token are
enough. -/
def turns (ts : List Token) : Nat := 3 * ts.length + 3

/-- The tokens after the directives of a document, which has a mark in front if there are any. -/
def directed? (ts : List Token) : Option (List Token) :=
  match ts with
  | .directive :: _ =>
    let rest := ts.dropWhile (· == .directive)
    if sees rest [.documentStart] then some rest else none
  | ts => some ts

/-- One document, with or without the marks around it. -/
def ofTokens? (ts : List Token) : Option Node := do
  let (node, rest) ← match ← directed? ts with
    | [] => some (empty, [])
    | .documentStart :: ts =>
      if ts.isEmpty || sees ts [.documentStart, .documentEnd] then some (empty, ts)
      else node? (turns ts) true false ts
    | ts => node? (turns ts) true false ts
  match rest.dropWhile (· == .documentEnd) with
  | [] => some node
  | _ => none

def ofText? (text : String) : Option Node := (Token.ofText? text).bind ofTokens?

end Node
end BinAtlas.Yaml
