import RawMemory.Session.Run
import RawMemory.Text.Cursor
import RawMemory.Text.Quoted
import RawMemory.CommandLine.Options
import RawMemory.Log.Destination
import RawMemory.Log.Filter
import RawMemory.Log.Setup
import RawMemory.Text.Drive
import RawMemory.CommandLine.Run
import RawMemory.Log.Day
import RawMemory.Log.Line
import RawMemory.Main
import RawMemory.Text.Pattern.Atom
import RawMemory.Text.Pattern.Bracket
import RawMemory.Text.Pattern
import RawMemory.Proofs.Text.Coder
import RawMemory.Proofs.Text.Encoding
import RawMemory.Proofs.Text.ByteOrder
import RawMemory.Proofs.Text.Utf8
import RawMemory.Proofs.Text.Decoding
import RawMemory.Proofs.Text.RoundTrip
import RawMemory.Proofs.Terminator
import RawMemory.Proofs.Text.Terminated
import RawMemory.Proofs.Text.Drive.Encoder
import RawMemory.Proofs.Text.Drive.Decoder
import RawMemory.Proofs.LittleEndian
import RawMemory.Proofs.PinTable
import RawMemory.Proofs.Window
import RawMemory.Proofs.Handle
import RawMemory.Proofs.Session.Effects
import RawMemory.Proofs.Session.Failure
import RawMemory.Proofs.Session.Cursor
import RawMemory.Proofs.Session.Comparison
import RawMemory.Proofs.CLibrary
import RawMemory.Proofs.Session.Accessors
import RawMemory.Proofs.Session.CheckedMode
import RawMemory.Proofs.ElementAddress
import RawMemory.Proofs.CheckedView
import RawMemory.Proofs.Copy
import RawMemory.Proofs.FirstTerminator
import RawMemory.Proofs.Text.Direct
import RawMemory.Proofs.Text.Recovery
import RawMemory.Proofs.TypedAccess
import RawMemory.Proofs.Cursor
import RawMemory.Proofs.Hexdump
import RawMemory.Proofs.Text.Estimate
import RawMemory.Proofs.Text.Growth
import RawMemory.Proofs.PinTable.Search
import RawMemory.Proofs.Text.Utf8.Window
import RawMemory.Proofs.Text.Drive.Cursor
import RawMemory.Proofs.Heap.Shelf
