import NtTarget.Binary.LoadAddress
import NtTarget.Breakpoint.Entry
import NtTarget.Dump.Modules

/-!
# Sessions

A session keeps what belongs to one address space: the library list that was
built for it and the breakpoint on its entry point.  Creating the process anew
drops the list, resolves the executable and installs or moves the breakpoint.
-/

namespace NtTarget

structure Session where
  profile : Profile
  cachedList : Option String
  executable : Option ExecutableEntry
  entryBreakpoint : Option EntryBreakpoint
  deriving Repr, DecidableEq

/-- What the debugger reports when a process is created. -/
structure CreationEvent where
  memory : TargetMemory
  thread : UInt64
  dump : Option SectionList
  binary : BinaryView
  symbolsLoaded : Bool

/-- A session and a host after a process was created, and what it came to. -/
structure Creation (σ : Type) where
  session : Session
  host : σ
  shift : Option UInt64
  outcome : Except Fault ExecutableEntry

namespace Session

/-- A session about which nothing is known yet. -/
def new (profile : Profile) : Session :=
  ⟨profile, none, none, none⟩

/-- The chain of a memory under the session's pointer width. -/
def chain (session : Session) (memory : TargetMemory) : Chain :=
  ⟨memory, session.profile.width⟩

/-- The block of a thread, with as many slots as the profile asks for. -/
def threadBlock (session : Session) (memory : TargetMemory) (thread : UInt64) :
    Except Fault ThreadBlock :=
  (session.chain memory).threadBlock thread session.profile.everySlot

/-- The number of a signal under the session's runtime flavour. -/
def signalNumber? (session : Session) (signal : Signal) : Option Nat :=
  session.profile.abi.number? signal

def invalidate (session : Session) : Session :=
  { session with cachedList := none }

/-- The library list, built from the given dump when there is none yet. -/
def libraryList (session : Session) (dump : CoreDump) : Session × Traced String :=
  match session.cachedList with
  | some text => (session, .silent text)
  | none =>
      let text := dump.libraryList
      ({ session with cachedList := some text.value }, text)

/-- Up to `length` bytes of the library list from an offset; there are none past its end. -/
def libraryRange (session : Session) (dump : CoreDump) (offset length : Nat) :
    Session × Traced Bytes :=
  let (next, text) := session.libraryList dump
  (next, text.map fun document => ((Utf8.encode document).drop offset).take length)

/-- Put the entry point breakpoint at an address: install it, or move the one there is. -/
def armEntry {σ : Type} (session : Session) (host : BreakpointHost σ) (address : UInt64)
    (state : σ) : Except Fault EntryBreakpoint × σ :=
  match session.entryBreakpoint with
  | some breakpoint => breakpoint.moveTo host address state
  | none => EntryBreakpoint.create host address state

/--
React to a created process.  The executable is recorded before the breakpoint
is armed, and stays recorded when the host refuses.
-/
def processCreated {σ : Type} (session : Session) (host : BreakpointHost σ) (event : CreationEvent)
    (state : σ) : Creation σ :=
  let resolution := (session.chain event.memory).resolve event.thread event.dump event.binary
    event.symbolsLoaded
  let resolved := { session.invalidate with executable := some resolution.executable }
  match resolution.executable.entry with
  | none => ⟨resolved, state, resolution.shift, .ok resolution.executable⟩
  | some address =>
      match resolved.armEntry host address state with
      | (.ok breakpoint, next) =>
          ⟨{ resolved with entryBreakpoint := some breakpoint }, next, resolution.shift,
            .ok resolution.executable⟩
      | (.error fault, next) => ⟨resolved, next, resolution.shift, .error fault⟩

/-- Handle the hit of a breakpoint; any but the one on the entry point stops the target. -/
def breakpointHit {σ : Type} (session : Session) (host : BreakpointHost σ) (id space : UInt64)
    (state : σ) : StopDecision × List Warning × σ :=
  match session.entryBreakpoint with
  | some breakpoint =>
      if breakpoint.id = id then
        (.resume, EntryBreakpoint.hit host space state)
      else
        (.stop, [], state)
  | none => (.stop, [], state)

end Session

end NtTarget
