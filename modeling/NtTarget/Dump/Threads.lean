import NtTarget.Dump.Basic
import NtTarget.Text.Utf16

/-!
# Threads of a dump

A thread's name is stored in the section that carries its decimal id.  Printed
names are cut to a number of whole characters.
-/

namespace NtTarget

namespace ThreadName

def sectionLead : String :=
  ".corethread/"

/-- The name of the section that holds the name of a thread. -/
def sectionName (thread : UInt64) : String :=
  sectionLead ++ Nat.repr thread.toNat

/-- The label of a thread, or of its process when no thread is given. -/
def label (process thread : UInt64) : String :=
  if thread = 0 then "process " ++ Nat.repr process.toNat
  else "Thread " ++ Hex.marked thread.toNat

end ThreadName

namespace CoreDump

/-- The name of a thread, unless it is thread 0 or none is stored. -/
def threadName? (dump : CoreDump) (thread : UInt64) : Option String :=
  if thread = 0 then none
  else match dump.sections.bytesOf? (ThreadName.sectionName thread) with
    | none => none
    | some [] => none
    | some payload =>
        some (String.ofList ((Utf16.decode payload).toList.take dump.profile.threadNameLimit))

end CoreDump

end NtTarget
