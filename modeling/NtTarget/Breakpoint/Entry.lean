import NtTarget.Breakpoint.Host
import NtTarget.Warning

/-!
# The entry point breakpoint

One breakpoint sits on the entry point of the process.  It never stops the
target: when it is hit, the debug registers have just been reset, and every
inserted hardware location of the space is taken out and put back.
-/

namespace NtTarget

inductive StopDecision where
  | stop
  | resume
  deriving Repr, DecidableEq

structure EntryBreakpoint where
  id : UInt64
  address : UInt64
  deriving Repr, DecidableEq

namespace EntryBreakpoint

def create {σ : Type} (host : BreakpointHost σ) (address : UInt64) (state : σ) :
    Except Fault EntryBreakpoint × σ :=
  match host.install address state with
  | (.ok id, next) => (.ok ⟨id, address⟩, next)
  | (.error fault, next) => (.error fault, next)

/-- Move the breakpoint to an address; the host is asked only when it is elsewhere. -/
def moveTo {σ : Type} (breakpoint : EntryBreakpoint) (host : BreakpointHost σ) (address : UInt64)
    (state : σ) : Except Fault EntryBreakpoint × σ :=
  if breakpoint.address = address then
    (.ok breakpoint, state)
  else
    match host.relocate breakpoint.id address state with
    | (.ok (), next) => (.ok { breakpoint with address }, next)
    | (.error fault, next) => (.error fault, next)

/-- Take locations out and put them back, one after the other; one that stays in is left alone. -/
def rearm {σ : Type} (host : BreakpointHost σ) : List Location → σ → List Warning × σ
  | [], state => ([], state)
  | location :: rest, state =>
      match host.remove location state with
      | (.error _, next) => rearm host rest next
      | (.ok (), removed) =>
          match host.insert location removed with
          | (.ok (), next) => rearm host rest next
          | (.error fault, next) =>
              let later := rearm host rest next
              (.locationNotReinserted location.address fault :: later.1, later.2)

/-- Handle a hit in a space: rearm what the hit found in the debug registers, and resume. -/
def hit {σ : Type} (host : BreakpointHost σ) (space : UInt64) (state : σ) : List Warning × σ :=
  rearm host ((host.locations state).filter (Location.isVolatile space)) state

end EntryBreakpoint

end NtTarget
