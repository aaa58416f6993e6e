import NtTarget.Fault

/-!
# Warnings

Something that could not be read never hides what could.  The operation goes
on and reports what is missing as a warning, in the order of discovery.
-/

namespace NtTarget

/-- Something that an operation went on without. -/
inductive Warning where
  | fieldUnreadable (name : String)
  | moduleNotLocated (name : String) (version : Option String)
  | importsBelowBase (address base : UInt64)
  | importTableOutside (rva : UInt64)
  | importTableCut
  | importNameOutside (rva : UInt32)
  | locationNotReinserted (address : UInt64) (fault : Fault)
  deriving Repr, DecidableEq

namespace Warning

def message : Warning → String
  | fieldUnreadable name => "unable to read " ++ name
  | moduleNotLocated name (some version) =>
      "Can't find '" ++ name ++ "' version " ++ version ++ "."
  | moduleNotLocated name none => "Can't find '" ++ name ++ "'."
  | importsBelowBase address base =>
      ".idata section at " ++ Hex.marked address.toNat ++ " lies below the image base " ++
        Hex.marked base.toNat
  | importTableOutside rva =>
      "import table at RVA " ++ Hex.marked rva.toNat ++ " lies outside the .idata section"
  | importTableCut => "unexpected end of .idata section"
  | importNameOutside rva =>
      "import name at RVA " ++ Hex.marked rva.toNat ++ " lies outside the .idata section"
  | locationNotReinserted address fault =>
      "cannot re-insert hardware location at " ++ Hex.marked address.toNat ++ ": " ++ fault.message

end Warning

end NtTarget
