import NtTarget.Breakpoint.Host

/-!
# Breakpoint tables

A host that keeps its locations in a list, numbers breakpoints from 1 and
refuses what it is told to refuse.
-/

namespace NtTarget

structure BreakpointTable where
  locations : List Location
  installed : Nat
  refusesInstall : Bool
  refusesRelocate : Bool
  refusesRemove : UInt64 → Bool
  refusesInsert : UInt64 → Bool

namespace BreakpointTable

/-- A table without locations that refuses nothing. -/
def empty : BreakpointTable :=
  ⟨[], 0, false, false, fun _ => false, fun _ => false⟩

def addLocation (table : BreakpointTable) (location : Location) : BreakpointTable :=
  { table with locations := table.locations ++ [location] }

/-- Set the inserted mark of the first location at the site of a given one. -/
def markFirst (site : Location) (inserted : Bool) : List Location → List Location
  | [] => []
  | location :: rest =>
      if location.sameSite site then { location with inserted } :: rest
      else location :: markFirst site inserted rest

def mark (table : BreakpointTable) (site : Location) (inserted : Bool) : BreakpointTable :=
  { table with locations := markFirst site inserted table.locations }

def host : BreakpointHost BreakpointTable where
  install _ table :=
    if table.refusesInstall then (.error (.unavailable .breakpoint), table)
    else (.ok (UInt64.ofNat (table.installed + 1)), { table with installed := table.installed + 1 })
  relocate breakpoint _ table :=
    if table.refusesRelocate then (.error (.notFound (.breakpoint breakpoint)), table)
    else (.ok (), table)
  locations table := table.locations
  remove location table :=
    if table.refusesRemove location.address then (.error (.unavailable .debugRegister), table)
    else (.ok (), table.mark location false)
  insert location table :=
    if table.refusesInsert location.address then (.error (.unavailable .debugRegister), table)
    else (.ok (), table.mark location true)

end BreakpointTable

end NtTarget
