import ClickhouseArrow.Wire.Reader
import ClickhouseArrow.Wire.Kept
import ClickhouseArrow.Wire.Words
import ClickhouseArrow.Wire.BigEndian
import ClickhouseArrow.Wire.Layout
import ClickhouseArrow.Wire.Maps
import ClickhouseArrow.Wire.Bounded
import ClickhouseArrow.Wire.Future
import ClickhouseArrow.Wire.AsyncReader
import ClickhouseArrow.Native.Types
import ClickhouseArrow.Native.Validate
import ClickhouseArrow.Values.Equality
import ClickhouseArrow.Values.Int256
import ClickhouseArrow.Values.FixedPoint
import ClickhouseArrow.Values.Decimals
import ClickhouseArrow.Native.Io
import ClickhouseArrow.Native.VarUint
import ClickhouseArrow.Native.Serialize
import ClickhouseArrow.Native.SerializeSync
import ClickhouseArrow.Native.Deserialize
import ClickhouseArrow.Native.Entries
import ClickhouseArrow.Native.Containers
import ClickhouseArrow.Native.RoundTrip
import ClickhouseArrow.Native.Termination
import ClickhouseArrow.Native.DictionaryLayout
import ClickhouseArrow.Native.Scan
import ClickhouseArrow.Native.Robustness
import ClickhouseArrow.Native.ModeAgreement
import ClickhouseArrow.Native.TypeNames
import ClickhouseArrow.Values.DateTime64
import ClickhouseArrow.Values.Date32
import ClickhouseArrow.Values.Display
import ClickhouseArrow.Native.NameRoundTrip
import ClickhouseArrow.Native.EnumLabels
import ClickhouseArrow.Native.NameArguments
import ClickhouseArrow.Native.ArgumentCommas
import ClickhouseArrow.Native.NameFaults
import ClickhouseArrow.Native.Block
import ClickhouseArrow.Native.BlockRoundTrip
import ClickhouseArrow.Native.GeoNulls
import ClickhouseArrow.Native.SyncReader
import ClickhouseArrow.Native.BlockWalk
import ClickhouseArrow.Formats.Compression
import ClickhouseArrow.Formats.FrameSafety
import ClickhouseArrow.Formats.NativeFormat
import ClickhouseArrow.Transition.Loop
import ClickhouseArrow.Transition.Machine
import ClickhouseArrow.Values.RawRow
import ClickhouseArrow.Client.Chunk
import ClickhouseArrow.Formats.DecompressionReader
import ClickhouseArrow.Client.ChunkReading
import ClickhouseArrow.Client.ChunkPayload
import ClickhouseArrow.Client.Load
import ClickhouseArrow.Client.Lanes
import ClickhouseArrow.Client.InternalConn
import ClickhouseArrow.Client.Scheduling
import ClickhouseArrow.Client.Operations
import ClickhouseArrow.Arrow.DataTypes
import ClickhouseArrow.Arrow.TypeMap
import ClickhouseArrow.Native.Rows
import ClickhouseArrow.Values.NestedSql
import ClickhouseArrow.Arrow.Arrays
import ClickhouseArrow.Arrow.Serialize
import ClickhouseArrow.Arrow.SerializeSync
import ClickhouseArrow.Arrow.Builder
import ClickhouseArrow.Arrow.Columns
import ClickhouseArrow.Arrow.Deserialize
import ClickhouseArrow.Arrow.DeserializeSync
import ClickhouseArrow.Arrow.Filling
import ClickhouseArrow.Arrow.ModeAgreement
import ClickhouseArrow.Arrow.FilledColumns
import ClickhouseArrow.Arrow.DecodedType
import ClickhouseArrow.Arrow.ColumnReads
import ClickhouseArrow.Arrow.Timestamps
import ClickhouseArrow.Arrow.EnumRoundTrip
import ClickhouseArrow.Arrow.TypeHint
import ClickhouseArrow.Arrow.DeserializerState
import ClickhouseArrow.Formats.ArrowFormat
import ClickhouseArrow.Arrow.MappingStable
import ClickhouseArrow.Arrow.Announced
import ClickhouseArrow.Arrow.Utf8
import ClickhouseArrow.Arrow.Dictionaries
import ClickhouseArrow.Arrow.StringDictionaries
import ClickhouseArrow.Arrow.EmptyColumns
import ClickhouseArrow.Arrow.ZeroRows
import ClickhouseArrow.Arrow.Placeholders
import ClickhouseArrow.Arrow.Fillable
import ClickhouseArrow.Settings.Setting
import ClickhouseArrow.Settings.RoundTrip
import ClickhouseArrow.Settings.LastWins
import ClickhouseArrow.Settings.Ignored
import ClickhouseArrow.Settings.Collect
import ClickhouseArrow.Wire.Cells
import ClickhouseArrow.Arrow.Meaning
import ClickhouseArrow.Arrow.MeaningWritten
import ClickhouseArrow.Derive.Row
import ClickhouseArrow.Derive.Routing
import ClickhouseArrow.Derive.Nested
import ClickhouseArrow.Derive.Names
import ClickhouseArrow.Derive.Faults
import ClickhouseArrow.Client.PacketReader
import ClickhouseArrow.Client.Receiving
import ClickhouseArrow.Arrow.Leaves
import ClickhouseArrow.Arrow.LeafReads
import ClickhouseArrow.Arrow.FlatColumns
import ClickhouseArrow.Arrow.DictionaryColumns
import ClickhouseArrow.Wire.Transit
import ClickhouseArrow.Arrow.NestedRows
import ClickhouseArrow.Arrow.NestedParts
import ClickhouseArrow.Arrow.NestedTypes
import ClickhouseArrow.Arrow.NestedColumns
import ClickhouseArrow.Arrow.BatchWriter
import ClickhouseArrow.Arrow.SentColumns
import ClickhouseArrow.Arrow.BatchRoundTrip
import ClickhouseArrow.Arrow.ImageBatches
import ClickhouseArrow.Formats.ArrowStream
import ClickhouseArrow.Arrow.ColumnWalk
import ClickhouseArrow.Arrow.LeafRobustness
import ClickhouseArrow.Arrow.Robustness
import ClickhouseArrow.Client.Handshake
