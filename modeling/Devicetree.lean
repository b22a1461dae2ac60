import Devicetree.Arithmetic
import Devicetree.BigEndian
import Devicetree.Blob
import Devicetree.Boot
import Devicetree.Boot.Config
import Devicetree.Boot.Memory
import Devicetree.Bytes
import Devicetree.Bytes.Read
import Devicetree.Error
import Devicetree.Event
import Devicetree.Forest
import Devicetree.Forest.Layout
import Devicetree.Forest.Search
import Devicetree.Forest.Trace
import Devicetree.Header
import Devicetree.Log
import Devicetree.Lookup
import Devicetree.Offsets
import Devicetree.Path
import Devicetree.Proofs.Boundaries
import Devicetree.Proofs.Cells
import Devicetree.Proofs.Composition
import Devicetree.Proofs.Confinement
import Devicetree.Proofs.Descent
import Devicetree.Proofs.Discovery
import Devicetree.Proofs.ExactReads
import Devicetree.Proofs.Exactness
import Devicetree.Proofs.FirstDefect
import Devicetree.Proofs.Grammar
import Devicetree.Proofs.Halting
import Devicetree.Proofs.InMemory
import Devicetree.Proofs.Levels
import Devicetree.Proofs.LogLines
import Devicetree.Proofs.LookupRecords
import Devicetree.Proofs.MemoryMap
import Devicetree.Proofs.Opening
import Devicetree.Proofs.Passage
import Devicetree.Proofs.PassingOver
import Devicetree.Proofs.Quoted
import Devicetree.Proofs.Reads
import Devicetree.Proofs.Refusals
import Devicetree.Proofs.Regions
import Devicetree.Proofs.Rendering
import Devicetree.Proofs.ReservedMemory
import Devicetree.Proofs.RoundTrip
import Devicetree.Proofs.Rules
import Devicetree.Proofs.Runs
import Devicetree.Proofs.Search
import Devicetree.Proofs.Settling
import Devicetree.Proofs.Shortening
import Devicetree.Proofs.SinglePass
import Devicetree.Proofs.Utf8
import Devicetree.Stream
import Devicetree.Stream.Spelling
import Devicetree.Text.CodePoint
import Devicetree.Text.Escaped
import Devicetree.Text.Hex
import Devicetree.Text.Quoted
import Devicetree.Text.Utf8
import Devicetree.Token
import Devicetree.Value
import Devicetree.Walk
import Devicetree.Walk.Descent
