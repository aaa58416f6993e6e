import NtTarget.Memory.Image
import NtTarget.Process.Info
import NtTarget.Dump.Threads
import NtTarget.Binary.ImportTable
import NtTarget.Breakpoint.Table
import NtTarget.Session.Basic
import NtTarget.Pe.Image
import NtTarget.Proofs.Binary.ImportWalk
import NtTarget.Proofs.Binary.LibraryNames
import NtTarget.Proofs.Binary.ImportLayout
import NtTarget.Proofs.Bytes.NumberRow
import NtTarget.Proofs.Bytes.CursorRun
import NtTarget.Proofs.Bytes.Ranges
import NtTarget.Proofs.Dump.Discovery
import NtTarget.Proofs.Dump.Rearrangement
import NtTarget.Proofs.Exception.Decoding
import NtTarget.Proofs.Exception.Narrowing
import NtTarget.Proofs.Memory.RegionReads
import NtTarget.Proofs.Memory.Regions
import NtTarget.Proofs.Process.PartialMemory
import NtTarget.Proofs.Process.StoredProcess
import NtTarget.Proofs.Session.EntryBreakpoint
import NtTarget.Proofs.Session.BreakpointHit
import NtTarget.Proofs.Session.SymbolBase
import NtTarget.Proofs.Text.SurrogateRepair
import NtTarget.Proofs.Text.Utf16Codec
import NtTarget.Proofs.Text.Utf8Codec
import NtTarget.Proofs.Module.LibraryReading
import NtTarget.Proofs.Module.RecordFormat
import NtTarget.Proofs.Module.NameSpelling
import NtTarget.Proofs.Dump.Locating
import NtTarget.Proofs.Dump.ExceptionRange
import NtTarget.Proofs.Session.LibraryCache
import NtTarget.Proofs.Exception.RecordLayout
import NtTarget.Proofs.Process.Query
import NtTarget.Proofs.Process.ThreadSlots
import NtTarget.Proofs.Process.BlockAgreement
import NtTarget.Proofs.Dump.ThreadNames
import NtTarget.Proofs.Bytes.NarrowTexts
import NtTarget.Proofs.Dump.Executable
import NtTarget.Proofs.Pe.SectionTable
import NtTarget.Proofs.Binary.Resolution
import NtTarget.Proofs.Pe.AddressMap
import NtTarget.Proofs.Process.BlockText
