import NtTarget.Dump.Sections
import NtTarget.Module.Lookup
import NtTarget.Profile

/-!
# Dumps

A dump is a list of sections seen under the profile of its target, possibly
with a locator for its modules.  The locator is asked only when the profile
turns symbol lookups on.
-/

namespace NtTarget

structure CoreDump where
  sections : SectionList
  profile : Profile
  locator : Option Locator

namespace CoreDump

/-- The locator, when the profile turns symbol lookups on. -/
def activeLocator? (dump : CoreDump) : Option Locator :=
  if dump.profile.useSymbolServer then dump.locator else none

end CoreDump

end NtTarget
