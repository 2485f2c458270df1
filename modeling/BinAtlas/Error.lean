import BinAtlas.Address
import BinAtlas.Format
import BinAtlas.Json.Canonical

/-! What can go wrong, by cause, and the text of each cause. -/

namespace BinAtlas

/-- What was asked for and is not there. -/
inductive Missing where
  | byte (address : Address)
  | word (address : Address)
  | dword (address : Address)
  | qword (address : Address)
  | bytes (count : Nat) (address : Address)
  | written (count : Nat) (address : Address)
  | virtualAddress (offset : UInt64)
  | fileOffset (address : Address)
  | function (address : Address)
  | signature (address : Address)
  | name (address : Address)
  | register (name : String)
  | variable (address : Address)
  | segmentNamed (name : String)
  | segmentAt (address : Address)
  | string (address : Address)
  | dataType (key : String)
  | importNamed (name : String)
  | exportNamed (name : String)

/-- An argument that makes no sense. -/
inductive Misuse where
  | window (start stop : Address)
  | bitWidth (bits : UInt32)
  | segmentKey (value : Json)

/-- A snapshot with an entry that cannot be. -/
inductive Unsound where
  | function (start stop : Address)
  | segment (name : String)
  | region (start : Address)
  | fileRegion (address : Address)
  | item (address : Address)

/-- A file that cannot be read as a text. -/
inductive ReadFault where
  | absent
  | directory
  | notText
  | other (message : String)

inductive Error where
  | notFound (what : Missing)
  | invalidInput (what : Misuse)
  | unexpectedReferenceType (code : UInt8)
  | unreadable (fault : ReadFault)
  | malformed (format : Format)
  | unsound (what : Unsound)

def Missing.message : Missing → String
  | .byte a => "Cannot get byte at " ++ a.text
  | .word a => "Cannot get word at " ++ a.text
  | .dword a => "Cannot get dword at " ++ a.text
  | .qword a => "Cannot get qword at " ++ a.text
  | .bytes n a =>
    s!"Unable to obtain {n} bytes from {a.textUpper8}: Address range not fully loaded."
  | .written n a =>
    s!"Unable to write {n} bytes at {a.textUpper8}: Address range not fully loaded."
  | .virtualAddress o => "Cannot get linear address for file offset: " ++ Address.text o
  | .fileOffset a => "Cannot get file offset for address: " ++ a.text
  | .function a => "Function does not exist at " ++ a.text
  | .signature a => "Unable to get function signature for " ++ a.text
  | .name a => "No name at " ++ a.text
  | .register n => "Invalid register name: " ++ n
  | .variable a => "Variable doesn't exist at " ++ a.text
  | .segmentNamed n => "Could not find segment with name: " ++ n
  | .segmentAt a => "Could not find segment containing address: " ++ a.text8
  | .string a => "Unable to obtain string at " ++ a.text
  | .dataType k => "Invalid data type: " ++ k
  | .importNamed n => "Unable to find import: " ++ n
  | .exportNamed n => "Unable to find export: " ++ n

def Misuse.message : Misuse → String
  | .window start stop => s!"Memory window ends before it starts: {start.text}-{stop.text}"
  | .bitWidth bits => s!"Invalid bit width: {bits}"
  | .segmentKey v => v.valueText

def Unsound.message : Unsound → String
  | .function start stop =>
    s!"function at {start.text} ends before it starts (end {stop.text})"
  | .segment name => s!"segment {name} ends before it starts"
  | .region start => s!"memory region at {start.text} extends past the end of the address space"
  | .fileRegion a => s!"file region at {a.text} extends past the end of the address space"
  | .item a => s!"item at {a.text} extends past the end of the address space"

def ReadFault.message : ReadFault → String
  | .absent => "No such file or directory (os error 2)"
  | .directory => "Is a directory (os error 21)"
  | .notText => "stream did not contain valid UTF-8"
  | .other message => message

/-- The text of the error, and those of the causes behind it. -/
def Error.chain : Error → List String
  | .notFound what => [what.message]
  | .invalidInput what => ["Invalid input: " ++ what.message]
  | .unexpectedReferenceType code => [s!"Unexpected reference type: {code}"]
  | .unreadable fault => ["I/O error: " ++ fault.message, fault.message]
  | .malformed f => [s!"Failed to parse snapshot {f.name}: {f.complaint}", f.complaint]
  | .unsound what => ["Invalid snapshot: " ++ what.message]

def Error.message (e : Error) : String := e.chain.headD ""

end BinAtlas
