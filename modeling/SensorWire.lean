import SensorWire.Bytes
import SensorWire.Cbor.Conversion
import SensorWire.Cbor.Diagnostic
import SensorWire.Cbor.Head
import SensorWire.Cbor.Item
import SensorWire.Cbor.Reader
import SensorWire.Codec.Decoder
import SensorWire.Codec.Encoder
import SensorWire.Codec.Error
import SensorWire.Codec.Field
import SensorWire.Codec.Table
import SensorWire.CommandLine.Arguments
import SensorWire.CommandLine.Flag
import SensorWire.CommandLine.GeneratorTool
import SensorWire.CommandLine.LogTool
import SensorWire.CommandLine.MessageTool
import SensorWire.CommandLine.Run
import SensorWire.Display.Format
import SensorWire.Display.Names
import SensorWire.Display.Path
import SensorWire.Display.Report
import SensorWire.Display.Unit
import SensorWire.Event.Basic
import SensorWire.Event.Codec
import SensorWire.Failure
import SensorWire.Files
import SensorWire.Generate.Comment
import SensorWire.Generate.Identifier
import SensorWire.Generate.Message
import SensorWire.Generate.Source
import SensorWire.Generate.Syntax
import SensorWire.Hash.Blake3
import SensorWire.Log.Commands
import SensorWire.Log.Export
import SensorWire.Log.Fields
import SensorWire.Log.Filter
import SensorWire.Log.Listing
import SensorWire.Log.Logger
import SensorWire.Log.Reading
import SensorWire.Log.Statistics
import SensorWire.Main
import SensorWire.Message.Apply
import SensorWire.Message.Basic
import SensorWire.Message.Catalog
import SensorWire.Message.Codec
import SensorWire.Message.Configuration
import SensorWire.Message.Enumerations
import SensorWire.Number.Binary
import SensorWire.Number.Layout
import SensorWire.Number.Reading
import SensorWire.Number.Shortest
import SensorWire.Schema.Basic
import SensorWire.Schema.Definition
import SensorWire.Schema.Record
import SensorWire.Text.Base64
import SensorWire.Text.Basic
import SensorWire.Text.Case
import SensorWire.Text.Classes
import SensorWire.Text.Hex
import SensorWire.Text.Json
import SensorWire.Text.Quoted
import SensorWire.Text.Utf8
import SensorWire.Text.Words
import SensorWire.Time.Civil
import SensorWire.Time.Duration
import SensorWire.Time.Reading
import SensorWire.Time.Timestamp
import SensorWire.Tool.Assignment
import SensorWire.Tool.Commands
import SensorWire.Tool.Environment
import SensorWire.Tool.Shell
import SensorWire.Value
import SensorWire.Vectors.Basic
import SensorWire.Vectors.BuiltIn
import SensorWire.Yaml.Cursor
import SensorWire.Yaml.Decode
import SensorWire.Yaml.Lexer
import SensorWire.Yaml.Node
import SensorWire.Yaml.Resolve
import SensorWire.Yaml.Scalar
import SensorWire.Yaml.Token
import SensorWire.Zstd.Frame
import SensorWire.Proofs.Head
import SensorWire.Proofs.Item
import SensorWire.Proofs.Encoder
import SensorWire.Proofs.Finished
import SensorWire.Proofs.Binary
import SensorWire.Proofs.Decoder
import SensorWire.Proofs.StrictDecoding
import SensorWire.Proofs.Marshal
import SensorWire.Proofs.TolerantDecoding
import SensorWire.Proofs.RoundTrip
import SensorWire.Proofs.Cursor
import SensorWire.Proofs.Account
import SensorWire.Proofs.Agreement
import SensorWire.Proofs.Sending
import SensorWire.Proofs.NormalForm
import SensorWire.Proofs.MessageRoundTrip
import SensorWire.Proofs.Budget
import SensorWire.Proofs.Journal
import SensorWire.Proofs.Walks
import SensorWire.Proofs.Cleanup
import SensorWire.Proofs.Reports
import SensorWire.Proofs.Allocation
import SensorWire.Proofs.Trace
import SensorWire.Proofs.Normaliser
import SensorWire.Proofs.Identification
import SensorWire.Proofs.Calendar
import SensorWire.Proofs.TimeText
import SensorWire.Proofs.EventCodec
import SensorWire.Proofs.LogReading
import SensorWire.Proofs.TornLog
import SensorWire.Proofs.Compression
import SensorWire.Proofs.LogFilter
import SensorWire.Proofs.Editing
import SensorWire.Proofs.Fingerprint
import SensorWire.Proofs.Commands
import SensorWire.Proofs.SchemaLoading
import SensorWire.Proofs.Session
import SensorWire.Proofs.BufferSizes
import SensorWire.Proofs.GeneratedCode
import SensorWire.Proofs.Operations
import SensorWire.Proofs.Sampling
import SensorWire.Proofs.SampleArray
import SensorWire.Proofs.MessageTrace
import SensorWire.Proofs.AllocationCounter
import SensorWire.Proofs.Forgetting
import SensorWire.Proofs.Readings
import SensorWire.Proofs.PairOrder
import SensorWire.Proofs.SampleRoom
import SensorWire.Proofs.FatalErrors
import SensorWire.Proofs.Conversions
import SensorWire.Proofs.Records
import SensorWire.Proofs.Applying
import SensorWire.Proofs.LogStatistics
import SensorWire.Proofs.TimeRange
import SensorWire.Proofs.Runes
import SensorWire.Proofs.Identifiers
import SensorWire.Proofs.DeclaredNames
import SensorWire.Proofs.Spelling
import SensorWire.Proofs.Paths
import SensorWire.Proofs.HexText
import SensorWire.Proofs.Units
import SensorWire.Proofs.Durations
import SensorWire.Proofs.EnumNames
import SensorWire.Proofs.PrefixCode
import SensorWire.Proofs.StatusText
