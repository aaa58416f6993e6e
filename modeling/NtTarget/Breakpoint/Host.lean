import NtTarget.Breakpoint.Location
import NtTarget.Fault

/-!
# Breakpoint hosts

The debugger keeps breakpoints in a state of its own and may refuse any
request.  A host is that state's transition functions; nothing is assumed of
them.  A recording host keeps every request together with its outcome.
-/

namespace NtTarget

/-- The requests that a debugger answers about its breakpoints. -/
structure BreakpointHost (σ : Type) where
  install : UInt64 → σ → Except Fault UInt64 × σ
  relocate : UInt64 → UInt64 → σ → Except Fault Unit × σ
  locations : σ → List Location
  remove : Location → σ → Except Fault Unit × σ
  insert : Location → σ → Except Fault Unit × σ

/-- A request to a host and its outcome. -/
inductive HostRequest where
  | install (address : UInt64) (outcome : Except Fault UInt64)
  | relocate (breakpoint address : UInt64) (outcome : Except Fault Unit)
  | remove (location : Location) (outcome : Except Fault Unit)
  | insert (location : Location) (outcome : Except Fault Unit)

/-- The state of a host and the requests that were made, the first one first. -/
structure Recorded (σ : Type) where
  state : σ
  requests : List HostRequest

namespace Recorded

/-- The outcome of a request, with the request appended to the record. -/
def note {σ α : Type} (past : List HostRequest) (request : Except Fault α → HostRequest)
    (answer : Except Fault α × σ) : Except Fault α × Recorded σ :=
  (answer.1, ⟨answer.2, past ++ [request answer.1]⟩)

end Recorded

namespace BreakpointHost

/-- The same host with a record of its requests. -/
def recording {σ : Type} (host : BreakpointHost σ) : BreakpointHost (Recorded σ) where
  install address recorded :=
    Recorded.note recorded.requests (.install address) (host.install address recorded.state)
  relocate breakpoint address recorded :=
    Recorded.note recorded.requests (.relocate breakpoint address)
      (host.relocate breakpoint address recorded.state)
  locations recorded := host.locations recorded.state
  remove location recorded :=
    Recorded.note recorded.requests (.remove location) (host.remove location recorded.state)
  insert location recorded :=
    Recorded.note recorded.requests (.insert location) (host.insert location recorded.state)

section Recording

variable {σ : Type} (host : BreakpointHost σ) (state : σ) (past : List HostRequest)

theorem recording_install (address : UInt64) :
    host.recording.install address ⟨state, past⟩ =
      ((host.install address state).1, ⟨(host.install address state).2,
        past ++ [.install address (host.install address state).1]⟩) := rfl

theorem recording_relocate (breakpoint address : UInt64) :
    host.recording.relocate breakpoint address ⟨state, past⟩ =
      ((host.relocate breakpoint address state).1, ⟨(host.relocate breakpoint address state).2,
        past ++ [.relocate breakpoint address (host.relocate breakpoint address state).1]⟩) := rfl

theorem recording_remove (location : Location) :
    host.recording.remove location ⟨state, past⟩ =
      ((host.remove location state).1, ⟨(host.remove location state).2,
        past ++ [.remove location (host.remove location state).1]⟩) := rfl

theorem recording_insert (location : Location) :
    host.recording.insert location ⟨state, past⟩ =
      ((host.insert location state).1, ⟨(host.insert location state).2,
        past ++ [.insert location (host.insert location state).1]⟩) := rfl

end Recording

end BreakpointHost

end NtTarget
