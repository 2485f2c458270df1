import BinAtlas.Command.Printing
import BinAtlas.Command.Report

/-! Carrying out a command. First the configuration is read, then the snapshot is opened, then the
command asks and prints. -/

namespace BinAtlas

/-- How a run ends, and what it has written to its two outputs. -/
structure Outcome where
  exit : UInt32
  stdout : String
  stderr : String

/-- What the paths lead to each time that a run reads a file: the configuration, the snapshot to open, and
the snapshot once more for its digest. -/
structure Readings where
  config : Files
  snapshot : Files
  digest : Files

namespace Command

open Printing Report

/-- Asks for what a command is about, and prints it in one of two forms. -/
def carryOut (tools : Toolkit) (files : Files) (atlas : Atlas) (json : Bool) : Command → Printing Unit
  | .info => do
    let i ← attempt (atlas.info tools files)
    if json then printJson tools.pretty (Report.info i).json else (infoLines i).forM println
  | .functions start stop => do
    let l ← attempt (atlas.session.view.collectFunctions start stop)
    if json then printJson tools.pretty (Report.functions l).json else printListing "Functions" functionLine l
  | .segments => do
    let l := atlas.session.view.segments
    if json then printJson tools.pretty (Report.segments l).json else printListing "Segments" segmentLine l
  | .segment key => do
    let g ← query (Session.getSegment (SegmentKey.ofText key) atlas.session).1
    if json then printJson tools.pretty (Report.segment g).json else println ("  - " ++ segmentLine g)
  | .references a d => do
    let l ← attempt (atlas.session.view.collectReferences a d)
    if json then printJson tools.pretty (Report.references a d l).json
    else printListing s!"References {directionText d} {a.text}" referenceLine l
  | .imports => do
    let l := atlas.session.view.imports
    if json then printJson tools.pretty (Report.imports l).json else printListing "Imports" importLine l
  | .exports => do
    let l := atlas.session.view.exports
    if json then printJson tools.pretty (Report.exports l).json else printListing "Exports" exportLine l
  | .read a n fill => do
    let data ← query (atlas.session.view.getBytes a n fill)
    if json then printJson tools.pretty (Report.bytes a data).json else println (bytesLine a data)
  | .string a length bits => do
    let data ← query (atlas.session.view.getString a length bits)
    if json then printJson tools.pretty (Report.string a data).json else println (Utf8.decodeLossy data)
  | .dataType name => do
    let t ← query (atlas.session.view.getDataType name)
    if json then printJson tools.pretty (Report.dataType t).json else println (typeLine t)
  | .variable a => do
    let v ← query (atlas.session.view.getVariable a)
    if json then printJson tools.pretty (Report.variable v).json else println (variableLine v)
  | .fileOffset a => do
    let o ← query (Session.getFileOffset a atlas.session).1
    if json then printJson tools.pretty (Report.fileOffset a o).json else println (Address.text o)
  | .virtualAddress o => do
    let a ← query (Session.getVirtualAddress o atlas.session).1
    if json then printJson tools.pretty (Report.virtualAddress o a).json else println a.text

end Command

/-- Opens what the command is about, and carries the command out. -/
def Invocation.carryOut (i : Invocation) (tools : Toolkit) (files : Readings) : Printing Unit := do
  let config ← Printing.attempt (Atlas.configOf tools files.config i.config)
  match i.snapshot with
  | none => Printing.attempt (.error .noSnapshot)
  | some path =>
    let atlas ← Printing.attempt (Atlas.openWith tools files.snapshot path config)
    i.command.carryOut tools files.digest atlas i.json

namespace Failure

/-- Puts blanks before every line of a cause but the first. -/
def indented (width : Nat) (cause : String) : String :=
  String.intercalate ("\n" ++ String.ofList (List.replicate width ' ')) (cause.splitOn "\n")

/-- One cause, or several with their numbers. -/
def causeLines (causes : List String) : List String :=
  match causes with
  | [cause] => ["    " ++ indented 4 cause]
  | causes => causes.zipIdx.map fun (cause, i) =>
    String.ofList ((toString i).toList.leftpad 5 ' ') ++ ": " ++ indented 7 cause

/-- The failure with the causes behind it. -/
def report (f : Failure) : String :=
  match f.chain with
  | [] => "Error: \n"
  | [message] => s!"Error: {message}\n"
  | message :: causes =>
    s!"Error: {message}\n\nCaused by:\n" ++ String.intercalate "\n" (causeLines causes) ++ "\n"

end Failure

namespace Command

/-- A whole run: arguments and files in, outputs out. -/
def runOver (tools : Toolkit) (files : Readings) (args : List String) : Outcome :=
  match tools.arguments args with
  | .error (.refused message) => { exit := 2, stdout := "", stderr := message }
  | .error (.explained text) => { exit := 0, stdout := text, stderr := "" }
  | .ok i =>
    match (i.carryOut tools files).outcome with
    | (.ok (), stdout) => { exit := 0, stdout, stderr := "" }
    | (.error f, stdout) => { exit := 1, stdout, stderr := f.report }

/-- A run over files that stay as they are. -/
def run (tools : Toolkit) (files : Files) (args : List String) : Outcome :=
  runOver tools { config := files, snapshot := files, digest := files } args

end Command
end BinAtlas
