import BinAtlas.Document
import BinAtlas.Cache
import BinAtlas.Json.Value

/-! The configuration of a session and of its log. -/

namespace BinAtlas

open Document (word? flag? text?)

structure Logging where
  json : Bool := false
  filter : Option String := none
  deriving DecidableEq

structure Config where
  cacheCapacity : UInt64 := Cache.defaultCapacity.toUInt64
  logging : Logging := {}
  deriving DecidableEq

variable {δ : Type} [Document δ]

def Logging.decode? (d : δ) : Option Logging := do
  let f ← Document.fields? ["json", "filter"] d
  let json ← f.orElse "json" flag? false
  let filter ← f.option "filter" text?
  return { json, filter }

def Config.decode? (d : δ) : Option Config := do
  let f ← Document.fields? ["cache_capacity", "logging"] d
  let cacheCapacity ← f.orElse "cache_capacity" word? Cache.defaultCapacity.toUInt64
  let logging ← f.orElse "logging" Logging.decode? {}
  return { cacheCapacity, logging }

/-- A filter that is not there is left out. -/
def Logging.encode (l : Logging) : Json :=
  .object (("json", .bool l.json) :: match l.filter with
    | some f => [("filter", .text f)]
    | none => [])

def Config.encode (c : Config) : Json :=
  .object [("cache_capacity", .word c.cacheCapacity), ("logging", c.logging.encode)]

end BinAtlas
