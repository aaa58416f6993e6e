import NtTarget.Text.Hex
import NtTarget.Text.Markup

/-!
# Modules and the library list document

A module is a name and a load address.  The library list is one line of
markup per document, with an element for every module.
-/

namespace NtTarget

structure ModuleEntry where
  name : String
  address : UInt64
  deriving Repr, DecidableEq

namespace LibraryList

def opening : String :=
  "<library-list>\n"

def closing : String :=
  "</library-list>\n"

def element (entry : ModuleEntry) : String :=
  "<library name=\"" ++ Markup.escape entry.name ++ "\"><segment address=\"" ++
    Hex.marked entry.address.toNat ++ "\"/></library>"

def render (modules : List ModuleEntry) : String :=
  String.ofList (opening.toList ++
    modules.flatMap (fun entry => (element entry).toList) ++ closing.toList)

end LibraryList

end NtTarget
