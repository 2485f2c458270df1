import BinAtlas.Command
import BinAtlas.Version

/-! The grammar of the command line. Options stand before or after the name of a command, those of
the command itself only after it; each is given once at most on either side. A value may be joined
to its option by an equals sign, and only then begin with a dash. After two dashes everything is a
word. -/

namespace BinAtlas.Command

/-- What a value must be. -/
inductive Shape where
  | path
  | text
  | address
  | size
  | word32
  | byte

/-- A decimal number that may have a sign. -/
def signed? (s : String) : Option Int :=
  match s.toList with
  | '-' :: ds => (Numeral.value? 10 ds).map fun n => -(n : Int)
  | ds => (Numeral.unsigned? 10 ds).map fun n => (n : Int)

/-- A signed number that is none below zero and none from a limit on. -/
def below? (limit : Nat) (s : String) : Option Nat :=
  (signed? s).bind fun n => if 0 ≤ n ∧ n < limit then some n.toNat else none

def size? (s : String) : Option Nat :=
  (Numeral.unsigned? 10 s.toList).filter (· < UInt64.size)

def word32? (s : String) : Option UInt32 := (below? UInt32.size s).map (·.toUInt32)

def byte? (s : String) : Option UInt8 := (below? UInt8.size s).map (·.toUInt8)

def Shape.admits (shape : Shape) (value : String) : Bool :=
  match shape with
  | .path => value != ""
  | .text => true
  | .address => (Address.ofText? value).isSome
  | .size => (size? value).isSome
  | .word32 => (word32? value).isSome
  | .byte => (byte? value).isSome

/-- What may stand on one side of the name of a command. -/
structure Grammar where
  options : List (String × Shape)
  words : List Shape
  /-- Whether the first word is the name of a command. -/
  named : Bool

/-- What was given on one side: options by name, the last one first, and words in order. -/
structure Given where
  json : Bool := false
  options : List (String × String) := []
  words : List String := []

/-- Why there is nothing to carry out. -/
inductive Refusal where
  | usage
  | help
  | version
  deriving DecidableEq

def shared : List (String × Shape) := [("snapshot", .path), ("config", .path)]

/-- The commands with their options and words. -/
def commands : List (String × List (String × Shape) × List Shape) :=
  [("info", [], []),
    ("functions", [("start", .address), ("end", .address)], []),
    ("segments", [], []),
    ("segment", [], [.text]),
    ("xrefs-from", [], [.address]),
    ("xrefs-to", [], [.address]),
    ("imports", [], []),
    ("exports", [], []),
    ("read", [("fill", .byte)], [.address, .size]),
    ("string", [("length", .size), ("width", .word32)], [.address]),
    ("data-type", [], [.text]),
    ("variable", [], [.address]),
    ("file-offset", [], [.address]),
    ("virtual-address", [], [.address])]

def top : Grammar := { options := shared, words := [], named := true }

/-- An argument as it looks by itself. -/
inductive Look where
  | escape
  | long (name : String) (value : Option String)
  | short (letter : Char)
  | word

def look (arg : String) : Look :=
  match arg.toList with
  | ['-', '-'] => .escape
  | '-' :: '-' :: cs =>
    let name := String.ofList (cs.takeWhile (· != '='))
    match cs.dropWhile (· != '=') with
    | _ :: value => .long name (some (String.ofList value))
    | [] => .long name none
  | '-' :: c :: _ => .short c
  | _ => .word

/-- Takes the value of an option, unless it is given already or of the wrong shape. -/
def Given.option? (g : Given) (grammar : Grammar) (name value : String) : Option Given :=
  match grammar.options.lookup name with
  | some shape =>
    if (g.options.lookup name).isNone && shape.admits value then
      some { g with options := (name, value) :: g.options }
    else none
  | none => none

/-- Takes the next word. -/
def Given.word? (g : Given) (grammar : Grammar) (value : String) : Option Given :=
  match grammar.words[g.words.length]? with
  | some shape => if shape.admits value then some { g with words := g.words ++ [value] } else none
  | none => none

def orUsage {α : Type} : Option α → Except Refusal α
  | some a => .ok a
  | none => .error .usage

/-- The words after `help` name one command at most. -/
def helpOn (topics : List String) : Refusal :=
  match topics with
  | [] => .help
  | [name] => if name == "help" || (commands.lookup name).isSome then .help else .usage
  | _ => .usage

/-- Reads one side, up to the name of a command where there is to be one. -/
def scan (grammar : Grammar) (g : Given) (escaped : Bool) :
    List String → Except Refusal (Given × List String)
  | [] => .ok (g, [])
  | arg :: args =>
    if escaped then do
      scan grammar (← orUsage (g.word? grammar arg)) true args
    else
      match look arg with
      | .escape => scan grammar g true args
      | .long "json" none =>
        if g.json then .error .usage else scan grammar { g with json := true } false args
      | .long "help" none => .error .help
      | .long "version" none => .error (if grammar.named then .version else .usage)
      | .long name (some value) => do
        scan grammar (← orUsage (g.option? grammar name value)) false args
      | .long name none =>
        match args with
        | value :: args =>
          match look value with
          | .word => do
            scan grammar (← orUsage (g.option? grammar name value)) false args
          | _ => .error .usage
        | [] => .error .usage
      | .short 'h' => .error .help
      | .short 'V' => .error (if grammar.named then .version else .usage)
      | .short _ => .error .usage
      | .word =>
        if grammar.named then
          if arg == "help" then .error (helpOn args) else .ok (g, arg :: args)
        else do
          scan grammar (← orUsage (g.word? grammar arg)) false args

def Given.address? (g : Given) (name : String) : Option Address :=
  (g.options.lookup name).bind Address.ofText?

/-- The command of a name. -/
def named? (name : String) (g : Given) : Option Command :=
  match name, g.words with
  | "info", [] => some .info
  | "functions", [] => some (.functions (g.address? "start") (g.address? "end"))
  | "segments", [] => some .segments
  | "segment", [key] => some (.segment key)
  | "xrefs-from", [a] => (Address.ofText? a).map (.references · .outgoing)
  | "xrefs-to", [a] => (Address.ofText? a).map (.references · .incoming)
  | "imports", [] => some .imports
  | "exports", [] => some .exports
  | "read", [a, n] => do
    return .read (← Address.ofText? a) (← size? n) ((g.options.lookup "fill").bind byte?)
  | "string", [a] => do
    return .string (← Address.ofText? a) ((g.options.lookup "length").bind size?)
      ((g.options.lookup "width").bind word32?)
  | "data-type", [n] => some (.dataType n)
  | "variable", [a] => (Address.ofText? a).map .variable
  | "file-offset", [a] => (Address.ofText? a).map .fileOffset
  | "virtual-address", [a] => (Address.ofText? a).map .virtualAddress
  | _, _ => none

/-- Reads the name of a command and what is given after it, which comes before what was given ahead of it. -/
def complete (before : Given) : List String → Except Refusal Invocation
  | [] => .error .usage
  | name :: args => do
    let (options, words) ← orUsage (commands.lookup name)
    let (after, _) ← scan { options := options ++ shared, words, named := false } {} false args
    let command ← orUsage (named? name after)
    return { snapshot := after.options.lookup "snapshot" <|> before.options.lookup "snapshot"
             config := after.options.lookup "config" <|> before.options.lookup "config"
             json := before.json || after.json
             command }

/-- Reads the arguments of a run. -/
def ofArguments (args : List String) : Except Refusal Invocation := do
  let (before, args) ← scan top {} false args
  complete before args

/-- The name the program is called by. -/
def programName : String := "unidis"

def usageText : String :=
  s!"Usage: {programName} [--snapshot <PATH>] [--config <PATH>] [--json] <COMMAND>\n\nCommands: "
    ++ String.intercalate ", " (commands.map (·.1)) ++ "\n"

def versionText : String := s!"{programName} {BinAtlas.version}\n"

/-- What is said in place of carrying a command out. -/
def Refusal.parting : Refusal → Parting
  | .usage => .refused usageText
  | .help => .explained usageText
  | .version => .explained versionText

end BinAtlas.Command
