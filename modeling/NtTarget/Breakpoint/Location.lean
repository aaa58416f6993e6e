/-!
# Breakpoint locations

A location is one place where the debugger watches the target.  Locations that
live in the debug registers of the processor are lost when it resets them.
-/

namespace NtTarget

inductive LocationKind where
  | software
  | hardware
  | watchpoint
  deriving Repr, DecidableEq

namespace LocationKind

def isHardware : LocationKind → Bool
  | software => false
  | hardware => true
  | watchpoint => true

end LocationKind

/-- One place where the debugger watches the target. -/
structure Location where
  breakpoint : UInt64
  space : UInt64
  address : UInt64
  kind : LocationKind
  inserted : Bool
  deriving Repr, DecidableEq

namespace Location

/-- Whether two locations are the same place of the same breakpoint. -/
def sameSite (left right : Location) : Bool :=
  left.breakpoint == right.breakpoint && left.space == right.space &&
    left.address == right.address && left.kind == right.kind

/-- Whether a location is lost when the debug registers of a space are reset. -/
def isVolatile (space : UInt64) (location : Location) : Bool :=
  location.inserted && location.space == space && location.kind.isHardware

end Location

end NtTarget
