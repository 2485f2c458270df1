import BinAtlas.Command.Run
import BinAtlas.Toolkit.Standard

/-! The program: reads the files that the arguments name, carries the command out, and writes what
it has to say. -/

namespace BinAtlas.Program

def readFile (path : String) : IO (Except ReadFault (List UInt8)) := do
  try
    let bytes ← IO.FS.readBinFile path
    return .ok bytes.toList
  catch e =>
    match e with
    | .noFileOrDirectory .. => return .error .absent
    | .inappropriateType .. => return .error .directory
    | e => return .error (.other (toString e))

/-- Reads each path once and answers from what was read. -/
def readFiles (paths : List String) : IO Files := do
  let read ← paths.mapM fun path => do return (path, ← readFile path)
  return fun path => (read.lookup path).getD (.error .absent)

def pathsOf (args : List String) : List String :=
  match Toolkit.standard.arguments args with
  | .ok i => i.paths
  | .error _ => []

end BinAtlas.Program

open BinAtlas in
def main (args : List String) : IO UInt32 := do
  let files ← Program.readFiles (Program.pathsOf args)
  let o := Command.run .standard files args
  (← IO.getStdout).putStr o.stdout
  (← IO.getStderr).putStr o.stderr
  return o.exit
