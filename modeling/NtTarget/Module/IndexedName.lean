import NtTarget.Text.Hex
import NtTarget.Text.Scan

/-!
# Indexed module section names

The newer convention keeps the load address of a module in the name of its
section, followed by keyed fields: the image size, the link timestamp and the
file version, which reaches to the end of the name.  A key counts where it
first occurs in the whole name, and a field without a usable number is absent.
-/

namespace NtTarget

/-- The fields of an indexed module section name. -/
structure IndexedName where
  address : UInt64
  size : Option UInt32
  timestamp : Option UInt32
  version : Option String
  deriving Repr, DecidableEq

namespace IndexedName

def sectionLead : String :=
  ".coremodule/"

def buildIdLead : String :=
  ".corebuildid/"

def sizeKey : String :=
  ";s="

def timestampKey : String :=
  ";t="

def versionKey : String :=
  ";v="

/-- The leading hexadecimal number of a text, when it is below a limit. -/
def leadingBelow? (limit : Nat) (text : List Char) : Option Nat :=
  (Hex.leading? text).filter fun number => number < limit

/-- The number behind the first occurrence of a key. -/
def field? (name : String) (key : String) : Option UInt32 :=
  ((Scan.afterFirst? key.toList name.toList).bind (leadingBelow? UInt32.size)).map UInt32.ofNat

/-- Read a section name, which must start with an address of 64 bits. -/
def parse? (name : String) : Option IndexedName :=
  ((Scan.afterLead? sectionLead.toList name.toList).bind (leadingBelow? UInt64.size)).map
    fun address =>
      { address := UInt64.ofNat address
        size := field? name sizeKey
        timestamp := field? name timestampKey
        version := (Scan.afterFirst? versionKey.toList name.toList).map String.ofList }

/-- The name of the section that holds the build id of the same module. -/
def buildIdSection (module : IndexedName) : String :=
  buildIdLead ++ Hex.text module.address.toNat

/--
A name has a number in a field: behind the first place of the key stands a
maximal run of hexadecimal digits with a value of 32 bits.
-/
structure HasField (name key : String) (number : UInt32) (before run tail : List Char) : Prop where
  stands : name.toList = before ++ (key.toList ++ (run ++ tail))
  first : ∀ earlier rest, name.toList = earlier ++ (key.toList ++ rest) →
    before.length ≤ earlier.length
  nonempty : run ≠ []
  digits : ∀ c ∈ run, Hex.isDigit c = true
  maximal : ∀ c ∈ tail.head?, Hex.isDigit c = false
  reads : Hex.value run = number.toNat

theorem leadingBelow?_eq_some_iff {limit number : Nat} {text : List Char} :
    leadingBelow? limit text = some number ↔
      number < limit ∧ ∃ run tail, text = run ++ tail ∧ run ≠ [] ∧
        (∀ c ∈ run, Hex.isDigit c = true) ∧ (∀ c ∈ tail.head?, Hex.isDigit c = false) ∧
        Hex.value run = number := by
  unfold leadingBelow?
  rw [Option.filter_eq_some_iff, Hex.leading?_eq_some_iff, decide_eq_true_eq]
  exact And.comm

theorem field?_eq_some_iff {name key : String} {number : UInt32} :
    field? name key = some number ↔
      ∃ before run tail, HasField name key number before run tail := by
  unfold field?
  rw [Option.map_eq_some_iff]
  constructor
  · rintro ⟨value, found, rfl⟩
    obtain ⟨text, behind, leading⟩ := Option.bind_eq_some_iff.1 found
    obtain ⟨before, stands, first⟩ := Scan.afterFirst?_eq_some_iff.1 behind
    obtain ⟨small, run, tail, rfl, nonempty, digits, maximal, rfl⟩ :=
      leadingBelow?_eq_some_iff.1 leading
    exact ⟨before, run, tail, stands, first, nonempty, digits, maximal,
      (UInt32.toNat_ofNat_of_lt' small).symm⟩
  · rintro ⟨before, run, tail, stands, first, nonempty, digits, maximal, reads⟩
    refine ⟨number.toNat, ?_, UInt32.ofNat_toNat⟩
    rw [Scan.afterFirst?_eq_some_iff.2 ⟨before, stands, first⟩, Option.bind_some]
    exact leadingBelow?_eq_some_iff.2
      ⟨number.toNat_lt, run, tail, rfl, nonempty, digits, maximal, reads⟩

end IndexedName

end NtTarget
