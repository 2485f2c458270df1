import BinAtlas.Bytes.Sha256
import BinAtlas.Command.Arguments
import BinAtlas.Json.Document
import BinAtlas.Json.Reader
import BinAtlas.Json.Writer
import BinAtlas.Toolkit
import BinAtlas.Yaml.Document

/-! The tools that the program comes with. -/

namespace BinAtlas

def Json.reader : Reader where
  Node := Json
  document := inferInstance
  read? := Json.ofText?

def Yaml.reader : Reader where
  Node := Yaml.Placed
  document := inferInstance
  read? := Yaml.Placed.ofText?

namespace Toolkit

def standard : Toolkit where
  arguments args := (Command.ofArguments args).mapError Command.Refusal.parting
  reader
    | .json => Json.reader
    | .yaml => Yaml.reader
  pretty v := .ok v.pretty
  digest := Sha256.digest

end Toolkit
end BinAtlas
