import NtTarget.Dump.Modules
import NtTarget.Proofs.Text.Utf16Codec

/-!
# Decoding and encoding repairs surrogates

A surrogate belongs to a pair if its other half is next to it: a low one behind
a high one.  Decoding a byte string and encoding the text again writes the same
units, with a replacement at the place of every surrogate without its half.
The units therefore come back unchanged exactly when every surrogate has one.
-/

namespace NtTarget.Utf16

/-- The unit that encodes the replacement character. -/
def replacementUnit : UInt16 :=
  0xFFFD

/-- Whether a unit between two others is a surrogate without its other half. -/
def isUnpaired (previous : Option UInt16) (unit : UInt16) (next : Option UInt16) : Bool :=
  isHigh unit && !next.any isLow || isLow unit && !previous.any isHigh

/-- The unit in front of an index; `first` stands in front of the list. -/
def unitBefore? (first : Option UInt16) (wide : List UInt16) : Nat → Option UInt16
  | 0 => first
  | index + 1 => wide[index]?

/-- Whether the unit at an index of a list is a surrogate without its other half. -/
def isUnpairedAt (wide : List UInt16) (index : Nat) : Bool :=
  wide[index]?.any fun unit => isUnpaired (unitBefore? none wide index) unit wide[index + 1]?

/-- The same units with a replacement at the place of every unpaired surrogate. -/
def repaired (wide : List UInt16) : List UInt16 :=
  wide.mapIdx fun index unit => if isUnpairedAt wide index then replacementUnit else unit

/--
The units of the text in a byte string: those of its longest even part, up to
the first zero unit.
-/
structure IsTextOf (wide : List UInt16) (bytes : Bytes) : Prop where
  clean : 0 ∉ wide
  ended : ∃ rest, bytes = bytesOf wide ++ rest ∧ (rest.length < 2 ∨ ∃ tail, rest = 0 :: 0 :: tail)

/-! ## The bytes of a list of units -/

@[simp] theorem length_bytesOf (wide : List UInt16) : (bytesOf wide).length = 2 * wide.length := by
  induction wide with
  | nil => rfl
  | cons unit rest ih =>
      have pair : (Word.toBytes unit).length = 2 := Word.length_toBytes unit
      rw [bytesOf, List.flatMap_cons, List.length_append, pair, List.length_cons]
      exact (congrArg (2 + ·) ih).trans (by omega)

theorem bytesOf_append (left right : List UInt16) :
    bytesOf (left ++ right) = bytesOf left ++ bytesOf right :=
  List.flatMap_append

theorem bytesOf_cons (low high : UInt8) (wide : List UInt16) :
    bytesOf (Word.ofBytes [low, high] :: wide) = low :: high :: bytesOf wide := by
  have pair : Word.toBytes (Word.ofBytes [low, high] : UInt16) = [low, high] :=
    Word.toBytes_ofBytes _ rfl
  rw [bytesOf, List.flatMap_cons, pair]
  rfl

/-- A byte string is its whole units and at most one byte. -/
theorem exists_bytesOf_units (bytes : Bytes) :
    ∃ rest, bytes = bytesOf (units bytes) ++ rest ∧ rest.length < 2 := by
  induction bytes using units.induct with
  | case1 low high rest ih =>
      obtain ⟨odd, whole, short⟩ := ih
      refine ⟨odd, ?_, short⟩
      rw [units_cons_cons, bytesOf_cons, List.cons_append, List.cons_append, ← whole]
  | case2 bytes noPair =>
      match bytes with
      | [] => exact ⟨[], rfl, Nat.zero_lt_two⟩
      | [odd] => exact ⟨[odd], rfl, Nat.one_lt_two⟩
      | low :: high :: rest => exact absurd rfl (noPair low high rest)

theorem isTextOf_iff {wide : List UInt16} {bytes : Bytes} :
    IsTextOf wide bytes ↔ textUnits bytes = wide := by
  constructor
  · rintro ⟨clean, rest, rfl, ended⟩
    have nothing : textUnits rest = [] := by
      rcases ended with short | ⟨tail, rfl⟩
      · match rest with
        | [] | [_] => rfl
        | _ :: _ :: _ =>
            simp only [List.length_cons] at short
            omega
      · rfl
    have nonzero : ∀ unit ∈ wide, (unit != 0) = true := by
      intro unit inside
      rw [bne_iff_ne]
      rintro rfl
      exact clean inside
    rw [textUnits_bytesOf_append nothing, List.takeWhile_eq_self_iff.2 nonzero]
  · rintro rfl
    obtain ⟨odd, whole, short⟩ := exists_bytesOf_units bytes
    have split : textUnits bytes ++ (units bytes).dropWhile (· != 0) = units bytes :=
      List.takeWhile_append_dropWhile
    refine ⟨?_, bytesOf ((units bytes).dropWhile (· != 0)) ++ odd, ?_, ?_⟩
    · intro inside
      simpa using List.all_eq_true.1 List.all_takeWhile 0 inside
    · rw [← List.append_assoc, ← bytesOf_append, split]
      exact whole
    · cases later : (units bytes).dropWhile (· != 0) with
      | nil => exact .inl short
      | cons unit tail =>
          have stopped := List.head?_dropWhile_not (· != (0 : UInt16)) (units bytes)
          rw [later] at stopped
          have zero : unit = 0 := by simpa using stopped
          rw [zero]
          exact .inr ⟨bytesOf tail ++ odd, rfl⟩

/-! ## Every character is written as it was read -/

theorem isLow_of_isHigh {unit : UInt16} (high : isHigh unit = true) : isLow unit = false := by
  rw [Bool.eq_false_iff, ne_eq, isLow_iff]
  rw [isHigh_iff] at high
  omega

theorem toNat_ofNat_of_isValidChar {n : Nat} (valid : n.isValidChar) :
    (Char.ofNat n).toNat = n := by
  rw [Char.ofNat, dif_pos valid]
  rfl

/-- A unit in no pair is written as itself, or as a replacement if it is a surrogate. -/
theorem encodeChar_alone (unit : UInt16) :
    encodeChar (alone unit) = [if isHigh unit || isLow unit then replacementUnit else unit] := by
  unfold alone
  cases surrogate : isHigh unit || isLow unit with
  | true => rfl
  | false =>
      obtain ⟨notHigh, notLow⟩ := Bool.or_eq_false_iff.1 surrogate
      rw [Bool.eq_false_iff, ne_eq, isHigh_iff] at notHigh
      rw [Bool.eq_false_iff, ne_eq, isLow_iff] at notLow
      have small := unit.toNat_lt
      have scalar : (Char.ofNat unit.toNat).toNat = unit.toNat :=
        toNat_ofNat_of_isValidChar (by unfold Nat.isValidChar; omega)
      unfold encodeChar
      rw [if_neg Bool.false_ne_true, if_neg Bool.false_ne_true, scalar, if_pos small,
        UInt16.ofNat_toNat]

/-- The two halves of a pair are written again. -/
theorem encodeChar_join {high low : UInt16} (highHalf : isHigh high = true)
    (lowHalf : isLow low = true) : encodeChar (join high low) = [high, low] := by
  rw [isHigh_iff] at highHalf
  rw [isLow_iff] at lowHalf
  have scalar : (join high low).toNat =
      0x10000 + 0x400 * (high.toNat - 0xD800) + (low.toNat - 0xDC00) :=
    toNat_ofNat_of_isValidChar (by unfold Nat.isValidChar; omega)
  have highAgain : 0xD800 + ((join high low).toNat - 0x10000) / 0x400 = high.toNat := by omega
  have lowAgain : 0xDC00 + ((join high low).toNat - 0x10000) % 0x400 = low.toNat := by omega
  unfold encodeChar
  dsimp only
  rw [if_neg (by omega), highAgain, lowAgain, UInt16.ofNat_toNat, UInt16.ofNat_toNat]

/-! ## Repair from the left -/

/-- Repair a list of units behind one unit, or at the start of a text. -/
def repairAfter : Option UInt16 → List UInt16 → List UInt16
  | _, [] => []
  | previous, unit :: rest =>
      (if isUnpaired previous unit rest.head? then replacementUnit else unit) ::
        repairAfter (some unit) rest

theorem getElem?_repairAfter (previous : Option UInt16) (wide : List UInt16) (index : Nat) :
    (repairAfter previous wide)[index]? = wide[index]?.map fun unit =>
      if isUnpaired (unitBefore? previous wide index) unit wide[index + 1]? then replacementUnit
      else unit := by
  induction wide generalizing previous index with
  | nil => rfl
  | cons unit rest ih =>
      cases index with
      | zero => simp [repairAfter, unitBefore?, List.head?_eq_getElem?]
      | succ index =>
          rw [repairAfter, List.getElem?_cons_succ, ih]
          cases index <;> rfl

/-- Looking at each place alone repairs what a walk from the left repairs. -/
theorem repaired_eq_repairAfter (wide : List UInt16) : repaired wide = repairAfter none wide := by
  refine List.ext_getElem? fun index => ?_
  rw [getElem?_repairAfter, repaired, List.getElem?_mapIdx]
  unfold isUnpairedAt
  cases wide[index]? <;> rfl

/-- Where no pair begins before or at a unit, it is unpaired exactly if it is a surrogate. -/
theorem isUnpaired_eq_of_noPair {previous next : Option UInt16} {unit : UInt16}
    (noneBefore : previous.any isHigh = true → isLow unit = false)
    (noneHere : isHigh unit = true → next.any isLow = false) :
    isUnpaired previous unit next = (isHigh unit || isLow unit) := by
  unfold isUnpaired
  cases high : isHigh unit <;> cases low : isLow unit
  · rfl
  · have noHigh : previous.any isHigh = false := by
      rw [Bool.eq_false_iff]
      intro pair
      cases low.symm.trans (noneBefore pair)
    rw [noHigh]
    rfl
  · rw [noneHere high]
    rfl
  · cases low.symm.trans (isLow_of_isHigh high)

/--
Decoding and encoding repairs from the left: whatever stands in front must not
take the first unit into its pair.
-/
theorem flatMap_encodeChar_decodeUnits {previous : Option UInt16} {wide : List UInt16}
    (noPair : previous.any isHigh = true → wide.head?.any isLow = false) :
    (decodeUnits wide).flatMap encodeChar = repairAfter previous wide := by
  induction wide using decodeUnits.induct generalizing previous with
  | case1 => rfl
  | case2 unit =>
      have last : isUnpaired previous unit none = (isHigh unit || isLow unit) :=
        isUnpaired_eq_of_noPair noPair fun _ => rfl
      rw [decodeUnits, List.flatMap_cons, encodeChar_alone, repairAfter, List.head?_nil, last]
      rfl
  | case3 high low rest pair ih =>
      obtain ⟨highHalf, lowHalf⟩ := Bool.and_eq_true_iff.1 pair
      have lowNotHigh : isHigh low = false := by
        rw [Bool.eq_false_iff]
        intro both
        cases lowHalf.symm.trans (isLow_of_isHigh both)
      have first : isUnpaired previous high (some low) = false := by
        simp [isUnpaired, lowHalf, isLow_of_isHigh highHalf]
      have second : isUnpaired (some high) low rest.head? = false := by
        simp [isUnpaired, highHalf, lowNotHigh]
      -- The pair is closed: its low half begins no other.
      have later : (decodeUnits rest).flatMap encodeChar = repairAfter (some low) rest :=
        ih fun high => absurd high (Bool.eq_false_iff.1 lowNotHigh)
      rw [decodeUnits, if_pos pair, List.flatMap_cons, encodeChar_join highHalf lowHalf, later,
        repairAfter, List.head?_cons, first, repairAfter, second]
      rfl
  | case4 first second rest notPair ih =>
      have noneHere : isHigh first = true → isLow second = false := by
        intro high
        rw [Bool.eq_false_iff]
        intro low
        exact notPair (Bool.and_eq_true_iff.2 ⟨high, low⟩)
      have here : isUnpaired previous first (some second) = (isHigh first || isLow first) :=
        isUnpaired_eq_of_noPair noPair noneHere
      rw [decodeUnits, if_neg notPair, List.flatMap_cons, encodeChar_alone, repairAfter,
        List.head?_cons, here, List.singleton_append]
      exact congrArg _ (ih noneHere)

/-- What comes back from a byte string is its text with every unpaired surrogate replaced. -/
theorem encode_decode (bytes : Bytes) :
    encode (decode bytes) = bytesOf (repaired (textUnits bytes)) := by
  unfold encode decode
  rw [String.toList_ofList, repaired_eq_repairAfter]
  exact congrArg bytesOf (flatMap_encodeChar_decodeUnits nofun)

/-! ## What comes back unchanged -/

/-- A replacement is no surrogate. -/
theorem isUnpaired_replacementUnit (previous next : Option UInt16) :
    isUnpaired previous replacementUnit next = false := rfl

theorem repaired_eq_self_iff {wide : List UInt16} :
    repaired wide = wide ↔ ∀ index, isUnpairedAt wide index = false := by
  have lookup : ∀ index, (repaired wide)[index]? = wide[index]?.map fun unit =>
      if isUnpairedAt wide index then replacementUnit else unit :=
    fun index => List.getElem?_mapIdx
  constructor
  · intro same index
    rw [Bool.eq_false_iff]
    intro unpaired
    obtain ⟨unit, here, surrogate⟩ := (Option.any_eq_true _ _).1 unpaired
    have kept := lookup index
    rw [same, here, unpaired] at kept
    rw [Option.some.inj kept] at surrogate
    cases (isUnpaired_replacementUnit _ _).symm.trans surrogate
  · intro paired
    refine List.ext_getElem? fun index => ?_
    rw [lookup, paired index]
    cases wide[index]? <;> rfl

/--
A byte string comes back unchanged exactly when it consists of whole units
without a zero unit and every surrogate is in a pair.
-/
theorem encode_decode_eq_self_iff {bytes : Bytes} :
    encode (decode bytes) = bytes ↔
      bytes.length % 2 = 0 ∧ 0 ∉ units bytes ∧
        ∀ index, isUnpairedAt (units bytes) index = false := by
  rw [encode_decode]
  constructor
  · intro same
    have whole : repaired (textUnits bytes) = units bytes := by
      have read := congrArg units same
      rwa [units_bytesOf] at read
    have lengths : (textUnits bytes).length = (units bytes).length := by
      rw [← whole, repaired, List.length_mapIdx]
    have uncut : textUnits bytes = units bytes := (List.takeWhile_prefix _).eq_of_length lengths
    refine ⟨?_, ?_, ?_⟩
    · rw [← same, length_bytesOf, Nat.mul_mod_right]
    · rw [← uncut]
      exact (isTextOf_iff.2 rfl).clean
    · rw [uncut] at whole
      exact repaired_eq_self_iff.1 whole
  · rintro ⟨even, clean, paired⟩
    obtain ⟨odd, whole, short⟩ := exists_bytesOf_units bytes
    have nothing : odd = [] := by
      have lengths := congrArg List.length whole
      rw [List.length_append, length_bytesOf] at lengths
      exact List.length_eq_zero_iff.1 (by omega)
    rw [nothing, List.append_nil] at whole
    have text : IsTextOf (units bytes) bytes :=
      ⟨clean, [], whole.trans (List.append_nil _).symm, .inl Nat.zero_lt_two⟩
    have uncut : textUnits bytes = units bytes := isTextOf_iff.1 text
    rw [uncut, repaired_eq_self_iff.2 paired]
    exact whole.symm

/-! ## The places where wide text is read -/

/-- The module of an indexed section is named by the text of the section. -/
theorem indexedModule_first {entry : NamedSection} {module : IndexedName}
    (parsed : IndexedName.parse? entry.name = some module) (dump : CoreDump) :
    (dump.indexedModule true entry).value = some ⟨decode entry.bytes, module.address⟩ := by
  unfold CoreDump.indexedModule
  rw [parsed]
  rfl

/--
A text reads back from its bytes up to its first zero character, also when a
zero unit and any other bytes follow.  A byte string comes back with every
unpaired surrogate of its text replaced and nothing else changed, so it comes
back unchanged exactly when it is whole units, without a zero unit and with all
surrogates in pairs.  A cursor and a module section read the same text from the
same bytes.
-/
theorem codec_round_trips :
    (∀ bytes wide, textUnits bytes = wide ↔ IsTextOf wide bytes) ∧
    (∀ text : String,
      decode (encode text) = String.ofList (text.toList.takeWhile (· != '\x00')) ∧
      ∀ tail : Bytes, decode (encode text ++ 0 :: 0 :: tail) =
        String.ofList (text.toList.takeWhile (· != '\x00'))) ∧
    (∀ bytes : Bytes,
      encode (decode bytes) = bytesOf (repaired (textUnits bytes)) ∧
      (encode (decode bytes) = bytes ↔
        bytes.length % 2 = 0 ∧ 0 ∉ units bytes ∧
          ∀ index, isUnpairedAt (units bytes) index = false)) ∧
    (∀ (cursor : Cursor) (length : Nat) (part : Bytes), length % 2 = 0 →
      cursor.data.slice? cursor.position length = some part →
      (Reader.wideText length).runOn cursor =
        (.ok (decode part), cursor.moveTo (cursor.position + length))) ∧
    ∀ (dump : CoreDump) (entry : NamedSection) (module : IndexedName),
      IndexedName.parse? entry.name = some module →
      (dump.indexedModule true entry).value = some ⟨decode entry.bytes, module.address⟩ := by
  refine ⟨fun _ _ => isTextOf_iff.symm, ?_, ?_, ?_, ?_⟩
  · intro text
    constructor
    · have whole := decode_encode_append (show textUnits [] = [] from rfl) text
      rwa [List.append_nil] at whole
    · intro tail
      exact decode_encode_append (show textUnits (0 :: 0 :: tail) = [] from rfl) text
  · intro bytes
    exact ⟨encode_decode bytes, encode_decode_eq_self_iff⟩
  · intro cursor length part even found
    rw [Reader.runOn_wideText, if_pos even, found]
  · intro dump entry module parsed
    exact indexedModule_first parsed dump

/-- A high half in front of a pair is replaced and the pair kept; a last odd byte is dropped. -/
theorem encode_decode_high_high_low :
    encode (decode [0x3D, 0xD8, 0x3D, 0xD8, 0x00, 0xDE, 0x41]) =
        [0xFD, 0xFF, 0x3D, 0xD8, 0x00, 0xDE] ∧
      (Reader.wideText 4).runOn ⟨[0x41, 0x3D, 0xD8, 0x00, 0xDE], 1⟩ =
        (.ok "😀", ⟨[0x41, 0x3D, 0xD8, 0x00, 0xDE], 5⟩) := by
  obtain ⟨-, -, comesBack, reads, -⟩ := codec_round_trips
  constructor
  · rw [(comesBack _).1]
    decide +kernel
  · have text : decode [0x3D, 0xD8, 0x00, 0xDE] = "😀" := by decide +kernel
    rw [reads ⟨[0x41, 0x3D, 0xD8, 0x00, 0xDE], 1⟩ 4 [0x3D, 0xD8, 0x00, 0xDE] rfl rfl, text]
    rfl

end NtTarget.Utf16
