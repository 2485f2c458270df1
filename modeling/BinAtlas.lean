import BinAtlas.Address
import BinAtlas.Atlas
import BinAtlas.Bytes.Hex
import BinAtlas.Bytes.Sha256
import BinAtlas.Cache
import BinAtlas.Command
import BinAtlas.Command.Arguments
import BinAtlas.Command.Printing
import BinAtlas.Command.Report
import BinAtlas.Command.Run
import BinAtlas.Config
import BinAtlas.DataType
import BinAtlas.Decimal.Shortest
import BinAtlas.Document
import BinAtlas.Error
import BinAtlas.Failure
import BinAtlas.Files
import BinAtlas.Format
import BinAtlas.Host
import BinAtlas.Host.Stored
import BinAtlas.Image
import BinAtlas.Json.Canonical
import BinAtlas.Json.Document
import BinAtlas.Json.Double
import BinAtlas.Json.Reader
import BinAtlas.Json.Token
import BinAtlas.Json.Value
import BinAtlas.Json.Writer
import BinAtlas.Main
import BinAtlas.Model.Decode
import BinAtlas.Model.Encode
import BinAtlas.Numeral
import BinAtlas.Proofs.Address
import BinAtlas.Proofs.Image
import BinAtlas.Proofs.Loading
import BinAtlas.Reference
import BinAtlas.SegmentKey
import BinAtlas.Session
import BinAtlas.Session.Operation
import BinAtlas.Snapshot
import BinAtlas.Snapshot.Decode
import BinAtlas.Snapshot.Encode
import BinAtlas.Snapshot.Loading
import BinAtlas.Text.Blank
import BinAtlas.Text.Upper
import BinAtlas.Text.Utf8
import BinAtlas.Text.Wide
import BinAtlas.Version
import BinAtlas.View.Bytes
import BinAtlas.View.Functions
import BinAtlas.View.Listing
import BinAtlas.View.Segments
import BinAtlas.View.Symbols
import BinAtlas.Window
import BinAtlas.Yaml.Document
import BinAtlas.Yaml.Glyph
import BinAtlas.Yaml.Node
import BinAtlas.Yaml.Scalar
import BinAtlas.Yaml.Token
import BinAtlas.Proofs.Window
import BinAtlas.Proofs.Session.Frame
import BinAtlas.Proofs.Session.Windows
import BinAtlas.Proofs.Session.ByteStore
import BinAtlas.Proofs.Session.Cursor
import BinAtlas.Proofs.Recency
import BinAtlas.Proofs.Session.Memoization
import BinAtlas.Proofs.Arranged
import BinAtlas.Proofs.Enumeration
import BinAtlas.Proofs.Checked
import BinAtlas.Proofs.Session.Faultless
import BinAtlas.Proofs.Text
import BinAtlas.Proofs.Literal
import BinAtlas.Proofs.Session.Strings
import BinAtlas.Proofs.Hex
import BinAtlas.Proofs.Abridged
import BinAtlas.Proofs.RoundTrip
import BinAtlas.Proofs.Places
import BinAtlas.Proofs.Session.Translation
import BinAtlas.Proofs.Acceptance
import BinAtlas.Proofs.Heads
import BinAtlas.Proofs.CallGraph
import BinAtlas.Proofs.Latest
import BinAtlas.Proofs.Session.HostCalls
import BinAtlas.Proofs.Session.TableOrder
import BinAtlas.Proofs.Session.Capacity
import BinAtlas.Proofs.Scan
import BinAtlas.Proofs.Session.Stretch
import BinAtlas.Proofs.Arguments
import BinAtlas.Proofs.Opening
import BinAtlas.Proofs.Session.Info
import BinAtlas.Proofs.Printing
import BinAtlas.Proofs.Outcome
import BinAtlas.Proofs.Word
import BinAtlas.Proofs.Session.Scalars
import BinAtlas.Proofs.Session.Ranges
import BinAtlas.Proofs.Walk
import BinAtlas.Proofs.Lines
import BinAtlas.Proofs.Listing
import BinAtlas.Proofs.Session.Exports
import BinAtlas.Proofs.Session.Prototypes
import BinAtlas.Proofs.Session.Tiling
import BinAtlas.Proofs.Session.Variables
import BinAtlas.Proofs.Session.Writes
import BinAtlas.Proofs.Session.Reads
import BinAtlas.Proofs.Segments
import BinAtlas.Proofs.Session.SegmentList
import BinAtlas.Proofs.Session.References
import BinAtlas.Proofs.Upper
import BinAtlas.Proofs.Trim
import BinAtlas.Proofs.Session.DataTypes
import BinAtlas.Proofs.Session.Names
import BinAtlas.Proofs.Extent
import BinAtlas.Proofs.Session.Bounds
import BinAtlas.Proofs.Numeral
import BinAtlas.Proofs.AddressText
import BinAtlas.Proofs.HexText
import BinAtlas.Toolkit
import BinAtlas.Toolkit.Standard
import BinAtlas.Proofs.Session.Direct
import BinAtlas.Proofs.Session.LookupKind
import BinAtlas.Proofs.Report
import BinAtlas.Proofs.Toolkit
