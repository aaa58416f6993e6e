import NtTarget.Proofs.Pe.SectionTable

/-!
# Addresses and file offsets

An address is mapped by the first header whose virtual range covers it, unless
that header or one in front of it has a range that leaves the 32-bit addresses.
The contents of a section are cut to the smaller one of its two sizes, so where
virtual ranges keep apart the address of each of its bytes maps to the byte
itself.  A header without a virtual size covers no address, though all of its
raw data are its contents.
-/

namespace NtTarget

namespace Pe.SectionHeader

/-- The first address behind the virtual range of a section. -/
def stop (header : SectionHeader) : Nat :=
  header.virtualAddress.toNat + header.virtualSize.toNat

def Covers (header : SectionHeader) (rva : Nat) : Prop :=
  header.virtualAddress.toNat ≤ rva ∧ rva < header.stop

instance (header : SectionHeader) (rva : Nat) : Decidable (header.Covers rva) :=
  inferInstanceAs (Decidable (_ ∧ _))

/-- The end of the virtual range is a 32-bit address itself. -/
def IsAddressed (header : SectionHeader) : Prop :=
  header.stop < 2 ^ 32

instance (header : SectionHeader) : Decidable header.IsAddressed :=
  inferInstanceAs (Decidable (_ < _))

/-- No address lies in both virtual ranges. -/
def Apart (left right : SectionHeader) : Prop :=
  ∀ rva, left.Covers rva → ¬ right.Covers rva

/-- Where an address lies in the file when a header covers it. -/
def offsetOf (header : SectionHeader) (rva : Nat) : Nat :=
  rva - header.virtualAddress.toNat + header.rawPointer.toNat

end Pe.SectionHeader

namespace PeImage

/-- A header that the search for an address looks at and passes. -/
def Passes (rva : Nat) (header : Pe.SectionHeader) : Prop :=
  header.IsAddressed ∧ ¬ header.Covers rva

/-- The first header that covers an address maps it, if no range up to there leaves the space. -/
def Maps (headers : List Pe.SectionHeader) (rva offset : Nat) : Prop :=
  ∃ before header after, headers = before ++ header :: after ∧
    (∀ earlier ∈ before, Passes rva earlier) ∧ header.IsAddressed ∧ header.Covers rva ∧
    offset = header.offsetOf rva

/-- Why a table gives an address no file offset. -/
inductive Refuses (headers : List Pe.SectionHeader) (rva : Nat) : Malformation → Prop where
  | extent {before after : List Pe.SectionHeader} {header : Pe.SectionHeader}
      (whole : headers = before ++ header :: after)
      (passed : ∀ earlier ∈ before, Passes rva earlier)
      (small : before = [] ∨ rva < 2 ^ 32) (leaves : ¬ header.IsAddressed) :
      Refuses headers rva (.sectionExtent header.virtualAddress header.virtualSize)
  | large {header : Pe.SectionHeader} {after : List Pe.SectionHeader}
      (whole : headers = header :: after) (addressed : header.IsAddressed) (large : 2 ^ 32 ≤ rva) :
      Refuses headers rva (.rvaTooLarge rva)
  | unmapped (passed : ∀ header ∈ headers, Passes rva header)
      (small : headers = [] ∨ rva < 2 ^ 32) : Refuses headers rva (.rvaUnmapped rva)

/-- No virtual range leaves the space or overlaps another one. -/
structure IsSpread (image : PeImage) : Prop where
  addressed : ∀ header ∈ image.headers, header.IsAddressed
  apart : image.headers.Pairwise Pe.SectionHeader.Apart

/-- The difference of two words, when it is a word. -/
def checkedDifference {w : Nat} (a b : BitVec w) : Option (BitVec w) :=
  if b ≤ a then some (a - b) else none

/--
The search in machine words.  A virtual range ends at a checked sum of 32 bits,
and the address is compared in 32 bits once it is known to fit.  The offset has
64 bits; the outer `none` is a program that ends because it has more or fewer.
-/
def wordOffsetIn? : List Pe.SectionHeader → BitVec 64 → Option (Except Fault (BitVec 64))
  | [], rva => some (.error (.malformed (.rvaUnmapped rva.toNat)))
  | header :: rest, rva =>
      match checkedSum header.virtualAddress.toBitVec header.virtualSize.toBitVec with
      | none =>
          some (.error (.malformed (.sectionExtent header.virtualAddress header.virtualSize)))
      | some stop =>
          if 2 ^ 32 ≤ rva.toNat then some (.error (.malformed (.rvaTooLarge rva.toNat)))
          else if header.virtualAddress.toBitVec ≤ rva.setWidth 32 ∧ rva.setWidth 32 < stop then
            (checkedDifference rva (header.virtualAddress.toBitVec.setWidth 64)).bind
              fun distance => (checkedSum distance (header.rawPointer.toBitVec.setWidth 64)).map .ok
          else wordOffsetIn? rest rva

/-! ## One header -/

section Step

variable {header : Pe.SectionHeader} {rest : List Pe.SectionHeader} {rva : Nat}

theorem offsetIn_of_leaves (leaves : ¬ header.IsAddressed) :
    offsetIn (header :: rest) rva =
      .error (.malformed (.sectionExtent header.virtualAddress header.virtualSize)) :=
  if_pos (Nat.not_lt.1 leaves)

theorem offsetIn_of_large (addressed : header.IsAddressed) (large : 2 ^ 32 ≤ rva) :
    offsetIn (header :: rest) rva = .error (.malformed (.rvaTooLarge rva)) :=
  (if_neg (Nat.not_le.2 addressed)).trans (if_pos large)

theorem offsetIn_of_covers (addressed : header.IsAddressed) (covers : header.Covers rva) :
    offsetIn (header :: rest) rva = .ok (header.offsetOf rva) := by
  have small : ¬ UInt32.size ≤ rva := Nat.not_le.2 (Nat.lt_trans covers.2 addressed)
  exact ((if_neg (Nat.not_le.2 addressed)).trans (if_neg small)).trans (if_pos covers)

theorem offsetIn_of_passes (passes : Passes rva header) (small : rva < 2 ^ 32) :
    offsetIn (header :: rest) rva = offsetIn rest rva :=
  ((if_neg (Nat.not_le.2 passes.1)).trans (if_neg (Nat.not_le.2 small))).trans (if_neg passes.2)

end Step

/-! ## The whole table -/

variable {headers : List Pe.SectionHeader} {rva offset : Nat}

/-- Whatever a table answers, it has a reason to. -/
theorem answer_offsetIn (headers : List Pe.SectionHeader) (rva : Nat) :
    (∃ offset, offsetIn headers rva = .ok offset ∧ Maps headers rva offset) ∨
      ∃ why, offsetIn headers rva = .error (.malformed why) ∧ Refuses headers rva why := by
  induction headers with
  | nil => exact .inr ⟨_, rfl, .unmapped (List.forall_mem_nil _) (.inl rfl)⟩
  | cons header rest ih =>
      by_cases addressed : header.IsAddressed
      · rcases Nat.lt_or_ge rva (2 ^ 32) with small | large
        · by_cases covers : header.Covers rva
          · exact .inl ⟨_, offsetIn_of_covers addressed covers,
              [], header, rest, rfl, List.forall_mem_nil _, addressed, covers, rfl⟩
          · have passes : Passes rva header := ⟨addressed, covers⟩
            rw [offsetIn_of_passes passes small]
            rcases ih with ⟨offset, found, before, first, after, rfl, passed, maps⟩ |
              ⟨why, failed, refused⟩
            · exact .inl ⟨offset, found, header :: before, first, after, rfl,
                List.forall_mem_cons.2 ⟨passes, passed⟩, maps⟩
            · refine .inr ⟨why, failed, ?_⟩
              cases refused with
              | extent whole passed _ leaves =>
                  subst whole
                  exact .extent List.cons_append.symm
                    (List.forall_mem_cons.2 ⟨passes, passed⟩) (.inr small) leaves
              | large _ _ large => exact absurd small (Nat.not_lt.2 large)
              | unmapped passed _ =>
                  exact .unmapped (List.forall_mem_cons.2 ⟨passes, passed⟩) (.inr small)
        · exact .inr ⟨_, offsetIn_of_large addressed large, .large rfl addressed large⟩
      · exact .inr ⟨_, offsetIn_of_leaves addressed,
          .extent (List.nil_append _).symm (List.forall_mem_nil _) (.inl rfl) addressed⟩

theorem offsetIn_of_maps (maps : Maps headers rva offset) :
    offsetIn headers rva = .ok offset := by
  obtain ⟨before, header, after, rfl, passed, addressed, covers, rfl⟩ := maps
  have small : rva < 2 ^ 32 := Nat.lt_trans covers.2 addressed
  induction before with
  | nil => exact offsetIn_of_covers addressed covers
  | cons first before ih =>
      obtain ⟨passes, later⟩ := List.forall_mem_cons.1 passed
      rw [List.cons_append, offsetIn_of_passes passes small]
      exact ih later

theorem offsetIn_eq_ok_iff : offsetIn headers rva = .ok offset ↔ Maps headers rva offset := by
  refine ⟨fun found => ?_, offsetIn_of_maps⟩
  rcases answer_offsetIn headers rva with ⟨other, same, maps⟩ | ⟨why, failed, -⟩
  · cases same.symm.trans found
    exact maps
  · cases failed.symm.trans found

theorem refuses_of_offsetIn {fault : Fault} (failed : offsetIn headers rva = .error fault) :
    ∃ why, fault = .malformed why ∧ Refuses headers rva why := by
  rcases answer_offsetIn headers rva with ⟨offset, found, -⟩ | ⟨why, same, refused⟩
  · cases found.symm.trans failed
  · cases same.symm.trans failed
    exact ⟨why, rfl, refused⟩

/-! ## Machine words -/

theorem exists_checkedDifference {w : Nat} {a b : BitVec w} (above : b.toNat ≤ a.toNat) :
    ∃ difference, checkedDifference a b = some difference ∧
      difference.toNat = a.toNat - b.toNat :=
  ⟨a - b, if_pos (BitVec.le_def.2 above), BitVec.toNat_sub_of_le (BitVec.le_def.2 above)⟩

/-- An address that a header covers has an offset that machine words can compute. -/
theorem exists_wordOffset {header : Pe.SectionHeader} {rva : BitVec 64}
    (addressed : header.IsAddressed) (covers : header.Covers rva.toNat) :
    ∃ offset, ((checkedDifference rva (header.virtualAddress.toBitVec.setWidth 64)).bind
        fun distance => checkedSum distance (header.rawPointer.toBitVec.setWidth 64)) =
          some offset ∧ offset.toNat = header.offsetOf rva.toNat := by
  have small : rva.toNat < 2 ^ 32 := Nat.lt_trans covers.2 addressed
  have pointer := header.rawPointer.toNat_lt
  have wideAddress : (header.virtualAddress.toBitVec.setWidth 64).toNat =
      header.virtualAddress.toNat := by
    rw [BitVec.toNat_setWidth_of_le (by decide)]
    rfl
  have widePointer : (header.rawPointer.toBitVec.setWidth 64).toNat = header.rawPointer.toNat := by
    rw [BitVec.toNat_setWidth_of_le (by decide)]
    rfl
  obtain ⟨distance, found, below⟩ := exists_checkedDifference (wideAddress.trans_le covers.1)
  rw [wideAddress] at below
  obtain ⟨offset, sum, total⟩ : ∃ offset,
      checkedSum distance (header.rawPointer.toBitVec.setWidth 64) = some offset ∧
        offset.toNat = distance.toNat + (header.rawPointer.toBitVec.setWidth 64).toNat :=
    exists_checkedSum (by omega)
  rw [below, widePointer] at total
  exact ⟨offset, by rw [found, Option.bind_some, sum], total⟩

/-- An address of 32 bits is covered when it lies between the two ends in 32 bits. -/
theorem covers_iff_narrow {header : Pe.SectionHeader} {rva : BitVec 64} {stop : BitVec 32}
    (total : stop.toNat = header.stop) (small : rva.toNat < 2 ^ 32) :
    (header.virtualAddress.toBitVec ≤ rva.setWidth 32 ∧ rva.setWidth 32 < stop) ↔
      header.Covers rva.toNat := by
  have narrow : (rva.setWidth 32).toNat = rva.toNat := by
    rw [BitVec.toNat_setWidth, Nat.mod_eq_of_lt small]
  rw [BitVec.le_def, BitVec.lt_def, narrow, total]
  rfl

/-- No sum or difference of the search leaves its machine word. -/
theorem wordOffsetIn?_eq (headers : List Pe.SectionHeader) (rva : BitVec 64) :
    ∃ outcome, wordOffsetIn? headers rva = some outcome ∧
      outcome.map BitVec.toNat = offsetIn headers rva.toNat := by
  induction headers with
  | nil => exact ⟨_, rfl, rfl⟩
  | cons header rest ih =>
      unfold wordOffsetIn?
      by_cases addressed : header.IsAddressed
      · obtain ⟨stop, sum, total⟩ : ∃ stop,
            checkedSum header.virtualAddress.toBitVec header.virtualSize.toBitVec = some stop ∧
              stop.toNat = header.stop := exists_checkedSum addressed
        rw [sum]
        dsimp only
        rcases Nat.lt_or_ge rva.toNat (2 ^ 32) with small | large
        · have compared := covers_iff_narrow total small
          rw [if_neg (Nat.not_le.2 small)]
          by_cases covers : header.Covers rva.toNat
          · obtain ⟨offset, computed, place⟩ := exists_wordOffset addressed covers
            obtain ⟨distance, below, above⟩ := Option.bind_eq_some_iff.1 computed
            refine ⟨.ok offset, ?_, ?_⟩
            · rw [if_pos (compared.2 covers), below, Option.bind_some, above]
              rfl
            · rw [offsetIn_of_covers addressed covers, ← place]
              rfl
          · rw [if_neg (mt compared.1 covers), offsetIn_of_passes ⟨addressed, covers⟩ small]
            exact ih
        · rw [if_pos large, offsetIn_of_large addressed large]
          exact ⟨_, rfl, rfl⟩
      · rw [checkedSum_eq_none (Nat.not_lt.1 addressed), offsetIn_of_leaves addressed]
        exact ⟨_, rfl, rfl⟩

/-! ## The bytes of a section -/

variable {image : PeImage} {header : Pe.SectionHeader} {contents : Bytes}

theorem covers_of_holds {file : Bytes} (held : header.Holds file contents)
    (sized : header.virtualSize ≠ 0) {index : Nat} (inside : index < contents.length) :
    header.Covers (header.virtualAddress.toNat + index) := by
  rw [held.sized sized] at inside
  have below := Nat.lt_of_lt_of_le inside (Nat.min_le_left _ _)
  exact ⟨Nat.le_add_right _ _, Nat.add_lt_add_left below _⟩

/-- Where ranges keep apart, an address that a header covers is mapped by this header. -/
theorem IsSpread.maps (spread : image.IsSpread) (listed : header ∈ image.headers)
    (covers : header.Covers rva) : Maps image.headers rva (header.offsetOf rva) := by
  obtain ⟨before, after, whole⟩ := List.append_of_mem listed
  have apart := spread.apart
  rw [whole] at apart
  obtain ⟨-, -, across⟩ := List.pairwise_append.1 apart
  refine ⟨before, header, after, whole, ?_, spread.addressed header listed, covers, rfl⟩
  intro earlier inside
  have known : earlier ∈ image.headers := by
    rw [whole]
    exact List.mem_append_left _ inside
  refine ⟨spread.addressed earlier known, fun both => ?_⟩
  exact across earlier inside header List.mem_cons_self rva both covers

theorem getElem?_of_holds {file : Bytes} (held : header.Holds file contents) {index : Nat}
    (inside : index < contents.length) :
    file[header.offsetOf (header.virtualAddress.toNat + index)]? = contents[index]? := by
  obtain ⟨before, after, rfl, place⟩ := held.placed
  unfold Pe.SectionHeader.offsetOf
  rw [Nat.add_sub_cancel_left, ← place, Nat.add_comm, List.getElem?_append_right (by omega),
    Nat.add_sub_cancel_left, List.getElem?_append_left inside]

/-- The address of every byte of a sized section maps to that byte. -/
theorem IsSpread.byte_at (spread : image.IsSpread) (listed : header ∈ image.headers)
    (held : header.Holds image.storage.contents contents) (sized : header.virtualSize ≠ 0)
    {index : Nat} {byte : UInt8} (found : contents[index]? = some byte) :
    ∃ offset, image.rvaToOffset (header.virtualAddress.toNat + index) = .ok offset ∧
      image.storage.contents[offset]? = some byte := by
  obtain ⟨inside, -⟩ := List.getElem?_eq_some_iff.1 found
  have covers := covers_of_holds held sized inside
  exact ⟨_, offsetIn_of_maps (spread.maps listed covers),
    (getElem?_of_holds held inside).trans found⟩

/-- The sections that are shown are those of the headers whose contents the file holds. -/
theorem mem_sections_iff {shown : String × Bytes} :
    shown ∈ image.sections ↔ ∃ header ∈ image.headers, header.IsNamed shown.1 ∧
      header.Holds image.storage.contents shown.2 := by
  obtain ⟨name, contents⟩ := shown
  unfold sections
  simp only [List.mem_filterMap, Option.map_eq_some_iff, Prod.mk.injEq]
  constructor
  · rintro ⟨header, listed, _, held, named, rfl⟩
    exact ⟨header, listed, Pe.SectionHeader.isNamed_iff.2 named, contentsOf?_eq_some_iff.1 held⟩
  · rintro ⟨header, listed, named, held⟩
    exact ⟨header, listed, contents, contentsOf?_eq_some_iff.2 held,
      Pe.SectionHeader.isNamed_iff.1 named, rfl⟩

/-! ## Sections without a virtual size -/

theorem passes_of_unsized (unsized : header.virtualSize = 0) (rva : Nat) : Passes rva header := by
  have stop : header.stop = header.virtualAddress.toNat := by
    unfold Pe.SectionHeader.stop
    rw [unsized]
    rfl
  constructor
  · unfold Pe.SectionHeader.IsAddressed
    rw [stop]
    exact header.virtualAddress.toNat_lt
  · rintro ⟨above, below⟩
    rw [stop] at below
    exact absurd above (Nat.not_le.2 below)

/-- A header without a virtual size changes nothing for the others. -/
theorem maps_remove {before after : List Pe.SectionHeader} (unsized : header.virtualSize = 0) :
    Maps (before ++ header :: after) rva offset ↔ Maps (before ++ after) rva offset := by
  rcases Nat.lt_or_ge rva (2 ^ 32) with small | large
  · rw [← offsetIn_eq_ok_iff, ← offsetIn_eq_ok_iff]
    induction before with
    | nil => rw [List.nil_append, offsetIn_of_passes (passes_of_unsized unsized rva) small]; rfl
    | cons first before ih =>
        by_cases addressed : first.IsAddressed
        · by_cases covers : first.Covers rva
          · rw [List.cons_append, List.cons_append, offsetIn_of_covers addressed covers,
              offsetIn_of_covers addressed covers]
          · rw [List.cons_append, List.cons_append, offsetIn_of_passes ⟨addressed, covers⟩ small,
              offsetIn_of_passes ⟨addressed, covers⟩ small]
            exact ih
        · rw [List.cons_append, List.cons_append, offsetIn_of_leaves addressed,
            offsetIn_of_leaves addressed]
  · have none_maps : ∀ headers, ¬ Maps headers rva offset := by
      rintro headers ⟨_, _, _, -, -, addressed, covers, -⟩
      exact absurd (Nat.lt_trans covers.2 addressed) (Nat.not_lt.2 large)
    exact iff_of_false (none_maps _) (none_maps _)

theorem holds_iff_of_unsized {file : Bytes} (unsized : header.virtualSize = 0) :
    header.Holds file contents ↔
      file.slice? header.rawPointer.toNat header.rawSize.toNat = some contents := by
  have range : header.contentsRange = (header.rawPointer.toNat, header.rawSize.toNat) := by
    unfold Pe.SectionHeader.contentsRange
    rw [if_pos unsized]
  rw [Pe.SectionHeader.holds_iff, range]

/--
An address has the file offset that the first header covering it gives, unless
this header or an earlier one leaves the 32-bit addresses; otherwise it is
refused for the reason that the table has, and machine words find the same.
Where no range leaves the space or overlaps another one, the address of every
byte of every shown section with a virtual size maps to that byte.  A header
without a virtual size covers nothing and might as well be missing, but the file
holds all of its raw data as its contents.
-/
theorem addresses_agree_with_contents (image : PeImage) :
    (∀ rva offset, image.rvaToOffset rva = .ok offset ↔ Maps image.headers rva offset) ∧
    (∀ rva fault, image.rvaToOffset rva = .error fault →
      ∃ why, fault = .malformed why ∧ Refuses image.headers rva why) ∧
    (∀ rva : BitVec 64, ∃ outcome, wordOffsetIn? image.headers rva = some outcome ∧
      outcome.map BitVec.toNat = image.rvaToOffset rva.toNat) ∧
    (∀ shown, shown ∈ image.sections ↔ ∃ header ∈ image.headers, header.IsNamed shown.1 ∧
      header.Holds image.storage.contents shown.2) ∧
    (image.IsSpread → ∀ header ∈ image.headers, ∀ contents,
      header.Holds image.storage.contents contents → header.virtualSize ≠ 0 →
        ∀ index byte, contents[index]? = some byte →
          ∃ offset, image.rvaToOffset (header.virtualAddress.toNat + index) = .ok offset ∧
            image.storage.contents[offset]? = some byte) ∧
    ∀ before header after, image.headers = before ++ header :: after →
      header.virtualSize = 0 →
        (∀ rva, ¬ header.Covers rva) ∧
        (∀ rva offset, image.rvaToOffset rva = .ok offset ↔ Maps (before ++ after) rva offset) ∧
        ∀ contents, header.Holds image.storage.contents contents ↔
          image.storage.contents.slice? header.rawPointer.toNat header.rawSize.toNat =
            some contents := by
  refine ⟨fun _ _ => offsetIn_eq_ok_iff, fun _ _ => refuses_of_offsetIn,
    wordOffsetIn?_eq image.headers, fun _ => mem_sections_iff, ?_, ?_⟩
  · intro spread header listed contents held sized index byte found
    exact spread.byte_at listed held sized found
  · intro before header after whole unsized
    refine ⟨fun rva => (passes_of_unsized unsized rva).2, fun rva offset => ?_,
      fun contents => holds_iff_of_unsized unsized⟩
    rw [← maps_remove unsized, ← whole]
    exact offsetIn_eq_ok_iff

/-- A header whose section has padding behind it in the file. -/
def paddedHeader : Pe.SectionHeader :=
  ⟨[0x2E, 0x61, 0, 0, 0, 0, 0, 0], none, 3, 0x1000, 4, 2⟩

/-- A header whose section is larger in memory than in the file. -/
def zeroFilledHeader : Pe.SectionHeader :=
  ⟨[0x2E, 0x62, 0, 0, 0, 0, 0, 0], none, 8, 0x1003, 2, 6⟩

/-- A header whose address lies in another section and which has no virtual size. -/
def unsizedHeader : Pe.SectionHeader :=
  ⟨[0x2E, 0x63, 0, 0, 0, 0, 0, 0], none, 0, 0x1001, 3, 8⟩

def spreadImage : PeImage where
  storage := .buffer [0, 0, 1, 2, 3, 0xEE, 4, 5, 6, 7, 8]
  width := .bits32
  imageBase := 0x400000
  entryPoint := 0
  directories := []
  headers := [paddedHeader, zeroFilledHeader, unsizedHeader]

theorem isSpread_spreadImage : spreadImage.IsSpread := by
  refine ⟨by decide, ?_⟩
  have unsized : ∀ left : Pe.SectionHeader, left.Apart unsizedHeader :=
    fun _ rva _ => (passes_of_unsized rfl rva).2
  refine .cons ?_ (.cons (List.forall_mem_singleton.2 (unsized _)) (List.pairwise_singleton _ _))
  refine List.forall_mem_cons.2 ⟨?_, List.forall_mem_singleton.2 (unsized _)⟩
  rintro rva ⟨-, below⟩ ⟨above, -⟩
  exact absurd below (Nat.not_lt.2 above)

/-- Every byte with an address is found, and the section without addresses is shown all the same. -/
theorem spreadImage_addresses :
    spreadImage.IsSpread ∧
    spreadImage.sections = [(".a", [1, 2, 3]), (".b", [4, 5]), (".c", [6, 7, 8])] ∧
    (∃ offset, spreadImage.rvaToOffset 0x1001 = .ok offset ∧
      spreadImage.storage.contents[offset]? = some 2) ∧
    (∃ offset, spreadImage.rvaToOffset 0x1004 = .ok offset ∧
      spreadImage.storage.contents[offset]? = some 5) ∧
    spreadImage.rvaToOffset 0x100A = .ok 13 ∧
    (∃ why, Fault.malformed (.rvaUnmapped 0x100B) = .malformed why ∧
      Refuses spreadImage.headers 0x100B why) ∧
    (∃ outcome, wordOffsetIn? spreadImage.headers 0xFFFFFFFFFFFFFFFF = some outcome ∧
      outcome.map BitVec.toNat = spreadImage.rvaToOffset 0xFFFFFFFFFFFFFFFF) ∧
    ∀ rva, ¬ unsizedHeader.Covers rva := by
  have spread := isSpread_spreadImage
  obtain ⟨mapped, refused, words, -, bytes, unsized⟩ := addresses_agree_with_contents spreadImage
  have passed : Passes 0x100A paddedHeader := ⟨by decide, by decide⟩
  refine ⟨spread, by decide +kernel, ?_, ?_, ?_, refused _ _ (by decide +kernel), words _, ?_⟩
  · exact bytes spread paddedHeader (by decide) [1, 2, 3]
      (Pe.SectionHeader.holds_iff.2 (by decide)) (by decide) 1 2 rfl
  · exact bytes spread zeroFilledHeader (by decide) [4, 5]
      (Pe.SectionHeader.holds_iff.2 (by decide)) (by decide) 1 5 rfl
  · exact (mapped _ _).2 ⟨[paddedHeader], zeroFilledHeader, [unsizedHeader], rfl,
      List.forall_mem_singleton.2 passed, by decide, by decide, rfl⟩
  · exact (unsized [paddedHeader, zeroFilledHeader] unsizedHeader [] rfl rfl).1

end PeImage

end NtTarget
