import Mathlib.Data.List.DropRight
import NtTarget.Pe.Image
import NtTarget.Proofs.Pe.StorageRange

/-!
# The sections of an image

The sections of an image are shown in table order, and those whose contents lie
outside the file are left out.  A look-up by name does not leave them out: the
first header of a name answers for it, with its contents and with its address,
whether or not a later one of the same name would fit.  So the bytes and the
address that are found for one name belong to one header, and the bytes are
those of the first section that is shown under the name.  All of this holds of
any headers; that they are those of the file is asked of the reader alone.
-/

namespace NtTarget

namespace Pe.SectionHeader

/-- The name of a section: the long one, or its short one up to the zeros at its end. -/
inductive IsNamed (header : SectionHeader) (name : String) : Prop where
  | long (listed : header.longName = some name)
  | short (unlisted : header.longName = none) (zeros : Nat)
      (decoded : (Utf8.decode header.rawName).toList = name.toList ++ List.replicate zeros '\x00')
      (trimmed : name.toList.getLast? ≠ some '\x00')

/--
The contents of a section in a file: what stands at its raw pointer, of its raw
size or of its virtual size when that is smaller and not 0.
-/
structure Holds (header : SectionHeader) (file contents : Bytes) : Prop where
  placed : ∃ before after, file = before ++ (contents ++ after) ∧
    before.length = header.rawPointer.toNat
  unsized : header.virtualSize = 0 → contents.length = header.rawSize.toNat
  sized : header.virtualSize ≠ 0 →
    contents.length = min header.virtualSize.toNat header.rawSize.toNat

/-- The names and contents that a table shows of a file. -/
inductive Shows (file : Bytes) : List SectionHeader → List (String × Bytes) → Prop where
  | nil : Shows file [] []
  | inside {header : SectionHeader} {headers : List SectionHeader} {name : String}
      {contents : Bytes} {shown : List (String × Bytes)} (named : header.IsNamed name)
      (held : header.Holds file contents) (rest : Shows file headers shown) :
      Shows file (header :: headers) ((name, contents) :: shown)
  | outside {header : SectionHeader} {headers : List SectionHeader}
      {shown : List (String × Bytes)} (missing : ∀ contents, ¬ header.Holds file contents)
      (rest : Shows file headers shown) : Shows file (header :: headers) shown

end Pe.SectionHeader

/--
A file lists section headers: as many as its file header counts, each one at
its place behind the one before it.
-/
structure Pe.FileHeader.Lists (file : Pe.FileHeader) (contents : Bytes)
    (headers : List Pe.SectionHeader) : Prop where
  found : Pe.FileHeader.ofFile? contents = some file
  count : headers.length = file.sectionCount.toNat
  listed : ∀ index header, headers[index]? = some header →
    Pe.SectionHeader.at? contents file.stringsOffset
      (file.sectionsOffset + Pe.SectionHeader.size * index) = some header

/-- A reader delivers the section headers that a file lists, in the order of the file. -/
def Pe.Reader.InFileOrder (read : Pe.Reader) : Prop :=
  ∀ contents optional headers, read contents = some (optional, headers) →
    ∃ file : Pe.FileHeader, file.Lists contents headers

namespace PeImage

/-- The header that answers for a name. -/
structure FirstNamed (image : PeImage) (name : String) (header : Pe.SectionHeader) : Prop where
  named : header.IsNamed name
  first : ∃ before after, image.headers = before ++ header :: after ∧
    ∀ other ∈ before, ¬ other.IsNamed name

/-- How an image answers for its sections. -/
structure AnswersByTable (image : PeImage) : Prop where
  shown : Pe.SectionHeader.Shows image.storage.contents image.headers image.sections
  unnamed : ∀ name, (∀ header ∈ image.headers, ¬ header.IsNamed name) →
    image.bytesOf? name = none ∧ image.addressOf? name = none
  bytes : ∀ name header, image.FirstNamed name header → ∀ contents,
    image.bytesOf? name = some contents ↔ header.Holds image.storage.contents contents
  address : ∀ name header, image.FirstNamed name header → ∃ address,
    image.addressOf? name = some address ∧
      address.toNat = (image.imageBase.toNat + header.virtualAddress.toNat) % 2 ^ 64
  agree : ∀ name contents, image.bytesOf? name = some contents → ∃ before after,
    image.sections = before ++ (name, contents) :: after ∧
      ∀ earlier ∈ before, earlier.1 ≠ name

/-- The headers of an image are those that its file lists, in the order of the file. -/
def HasTable (image : PeImage) (file : Pe.FileHeader) : Prop :=
  file.Lists image.storage.contents image.headers

/-- The same image over a mapping of its file. -/
def mapped (image : PeImage) : PeImage :=
  { image with storage := .mapping image.storage.contents }

end PeImage

/-! ## One header -/

namespace Pe.SectionHeader

variable {header : SectionHeader} {file contents : Bytes} {name : String}

/-- Dropping a character at the end of a text leaves the one front of it that does not end so. -/
theorem rdropWhile_eq_iff {c : Char} {text front : List Char} :
    text.rdropWhile (· == c) = front ↔
      (∃ count, text = front ++ List.replicate count c) ∧ front.getLast? ≠ some c := by
  constructor
  · rintro rfl
    have dropped : text.rtakeWhile (· == c) =
        List.replicate (text.rtakeWhile (· == c)).length c :=
      List.eq_replicate_iff.2 ⟨rfl, fun other inside => by
        simpa using List.mem_rtakeWhile_imp inside⟩
    refine ⟨⟨(text.rtakeWhile (· == c)).length, ?_⟩, fun last => ?_⟩
    · rw [← dropped, List.rdropWhile_append_rtakeWhile]
    · obtain ⟨nonempty, same⟩ := List.mem_getLast?_eq_getLast last
      exact List.rdropWhile_last_not _ _ nonempty (beq_iff_eq.2 same.symm)
  · rintro ⟨⟨count, rfl⟩, trimmed⟩
    induction count with
    | zero =>
        rw [List.replicate_zero, List.append_nil, List.rdropWhile_eq_self_iff]
        intro nonempty last
        rw [List.getLast?_eq_some_getLast nonempty, beq_iff_eq.1 last] at trimmed
        exact trimmed rfl
    | succ count ih =>
        rw [List.replicate_succ', ← List.append_assoc, List.rdropWhile_concat,
          if_pos (beq_self_eq_true c)]
        exact ih

theorem isNamed_iff : header.IsNamed name ↔ header.name = name := by
  unfold SectionHeader.name
  constructor
  · rintro (listed | ⟨unlisted, zeros, decoded, trimmed⟩)
    · rw [listed]
    · rw [unlisted]
      have front := rdropWhile_eq_iff.2 ⟨⟨zeros, decoded⟩, trimmed⟩
      exact (congrArg String.ofList front).trans String.ofList_toList
  · cases listed : header.longName with
    | some text =>
        rintro rfl
        exact .long listed
    | none =>
        intro named
        have front := congrArg String.toList named
        rw [String.toList_ofList] at front
        obtain ⟨⟨zeros, decoded⟩, trimmed⟩ := rdropWhile_eq_iff.1 front
        exact .short listed zeros decoded trimmed

theorem isNamed_name (header : SectionHeader) : header.IsNamed header.name :=
  isNamed_iff.2 rfl

theorem holds_iff :
    header.Holds file contents ↔
      file.slice? header.contentsRange.1 header.contentsRange.2 = some contents := by
  constructor
  · rintro ⟨⟨before, after, rfl, place⟩, unsized, sized⟩
    have length : header.contentsRange.2 = contents.length := by
      unfold contentsRange
      dsimp only
      split
      · exact (unsized ‹_›).symm
      · exact (sized ‹_›).symm
    rw [length, show header.contentsRange.1 = before.length from place.symm]
    exact Bytes.slice?_between before contents after
  · intro found
    have length := Bytes.length_of_slice? found
    obtain ⟨fits, part⟩ := Bytes.slice?_eq_some_iff.1 found
    refine ⟨⟨file.take header.contentsRange.1,
      file.drop (header.contentsRange.1 + header.contentsRange.2), ?_, ?_⟩, ?_, ?_⟩
    · rw [← part, ← List.drop_drop, List.take_append_drop, List.take_append_drop]
    · exact List.length_take_of_le (by omega)
    · intro unsized
      rw [length]
      exact if_pos unsized
    · intro sized
      rw [length]
      exact if_neg sized

/-- A file holds the contents of a section when their range lies inside it. -/
theorem exists_holds_iff :
    (∃ contents, header.Holds file contents) ↔
      header.contentsRange.1 + header.contentsRange.2 ≤ file.length := by
  simp only [holds_iff, Bytes.slice?_eq_some_iff, exists_and_left, exists_eq', and_true]

/-- The end of the contents of a section is a sum of two 32-bit numbers. -/
theorem contentsRange_addressed (header : SectionHeader) :
    header.contentsRange.1 + header.contentsRange.2 < UInt64.size := by
  have pointer := header.rawPointer.toNat_lt
  have raw := header.rawSize.toNat_lt
  unfold contentsRange
  dsimp only
  split <;> simp only [UInt64.size] <;> omega

end Pe.SectionHeader

/-! ## The table of a file -/

namespace Pe.SectionHeader

theorem row?_eq_some {file : Bytes} {strings offset count : Nat} {headers : List SectionHeader}
    (read : row? file strings offset count = some headers) :
    headers.length = count ∧ ∀ index header, headers[index]? = some header →
      at? file strings (offset + size * index) = some header := by
  induction count generalizing offset headers with
  | zero =>
      cases read
      exact ⟨rfl, fun index header found => by cases found⟩
  | succ count ih =>
      obtain ⟨head, first, tail, rest, same⟩ : ∃ head, at? file strings offset = some head ∧
          ∃ tail, row? file strings (offset + size) count = some tail ∧
            head :: tail = headers := by
        simpa [row?, Option.bind_eq_some_iff] using read
      obtain ⟨length, listed⟩ := ih rest
      subst same
      refine ⟨congrArg Nat.succ length, ?_⟩
      rintro (- | index) header found
      · cases found
        exact first
      · rw [Nat.mul_succ, Nat.add_comm _ size, ← Nat.add_assoc]
        exact listed index header found

end Pe.SectionHeader

/-- A file lists its section headers in one way. -/
theorem Pe.FileHeader.Lists.unique {file other : Pe.FileHeader} {contents : Bytes}
    {headers others : List Pe.SectionHeader} (lists : file.Lists contents headers)
    (alsoLists : other.Lists contents others) : headers = others := by
  cases lists.found.symm.trans alsoLists.found
  refine List.ext_getElem (lists.count.trans alsoLists.count.symm) ?_
  intro index inside insideOther
  have first := lists.listed index _ (List.getElem?_eq_getElem inside)
  have second := alsoLists.listed index _ (List.getElem?_eq_getElem insideOther)
  exact Option.some.inj (first.symm.trans second)

namespace PeImage

variable {image : PeImage} {storage : Storage} {read : Pe.Reader}

theorem headers?_inFileOrder : Pe.Reader.InFileOrder headers? := by
  intro contents optional headers delivered
  obtain ⟨file, found, sections⟩ : ∃ file, Pe.FileHeader.ofFile? contents = some file ∧
      file.sections? contents = some headers := by
    simp only [headers?, Option.bind_eq_bind, Option.bind_eq_some_iff, Option.pure_def,
      Option.some_inj, Prod.mk.injEq] at delivered
    obtain ⟨file, found, -, -, headers, sections, -, rfl⟩ := delivered
    exact ⟨file, found, sections⟩
  unfold Pe.FileHeader.sections? at sections
  split at sections
  · obtain ⟨count, listed⟩ := Pe.SectionHeader.row?_eq_some sections
    exact ⟨file, found, count, listed⟩
  · cases sections

/-- Following the imports refuses some files and reorders no headers. -/
theorem importReader_inFileOrder : Pe.Reader.InFileOrder importReader := by
  intro contents optional headers delivered
  exact headers?_inFileOrder contents optional headers (Option.filter_eq_some_iff.1 delivered).1

/-- An accepted file is described by its own headers, as its reader delivers them. -/
theorem hasTable_of_load (ordered : read.InFileOrder) (loaded : load read storage = .ok image) :
    image.storage = storage ∧ ∃ file, image.HasTable file := by
  unfold load at loaded
  split at loaded
  · cases loaded
  · split at loaded
    · cases loaded
    · cases loaded
    · rename_i optional headers delivered
      cases loaded
      exact ⟨rfl, ordered _ _ _ delivered⟩

/-- The sections of a file do not depend on the reader, if it keeps to the order of the file. -/
theorem sections_eq_of_load {same : PeImage} {other : Pe.Reader} (ordered : read.InFileOrder)
    (alsoOrdered : other.InFileOrder) (loaded : load read storage = .ok image)
    (alsoLoaded : load other storage = .ok same) :
    image.sections = same.sections ∧ image.bytesOf? = same.bytesOf? := by
  obtain ⟨stored, file, lists⟩ := hasTable_of_load ordered loaded
  obtain ⟨alsoStored, otherFile, alsoLists⟩ := hasTable_of_load alsoOrdered alsoLoaded
  have storages : image.storage = same.storage := stored.trans alsoStored.symm
  unfold HasTable at lists alsoLists
  rw [← storages] at alsoLists
  have headers : image.headers = same.headers := lists.unique alsoLists
  obtain ⟨⟩ := image
  obtain ⟨⟩ := same
  cases storages
  cases headers
  exact ⟨rfl, rfl⟩

/-- The same file is accepted over either storage, and describes the same image. -/
theorem load_mapping (read : Pe.Reader) (storage : Storage) :
    load read (.mapping storage.contents) = (load read storage).map mapped := by
  have same : (Storage.mapping storage.contents).contents = storage.contents := rfl
  unfold load
  rw [same]
  by_cases empty : storage.contents.isEmpty = true
  · rw [if_pos empty, if_pos empty]
    rfl
  · rw [if_neg empty, if_neg empty]
    rcases read storage.contents with _ | ⟨_ | optional, headers⟩ <;> rfl

/-! ## Sections by place and by name -/

theorem contentsOf?_eq_some_iff {header : Pe.SectionHeader} {contents : Bytes} :
    image.contentsOf? header = some contents ↔ header.Holds image.storage.contents contents := by
  unfold contentsOf?
  rw [Storage.range?_of_addressed _ header.contentsRange_addressed, Pe.SectionHeader.holds_iff]

theorem shows_sections (image : PeImage) :
    Pe.SectionHeader.Shows image.storage.contents image.headers image.sections := by
  unfold sections
  induction image.headers with
  | nil => exact .nil
  | cons header headers ih =>
      cases found : image.contentsOf? header with
      | some contents =>
          rw [List.filterMap_cons_some (by rw [found]; rfl)]
          exact .inside header.isNamed_name (contentsOf?_eq_some_iff.1 found) ih
      | none =>
          rw [List.filterMap_cons_none (by rw [found]; rfl)]
          refine .outside (fun contents held => ?_) ih
          cases found.symm.trans (contentsOf?_eq_some_iff.2 held)

variable {name : String} {header : Pe.SectionHeader} {contents : Bytes}

theorem firstNamed_iff :
    image.FirstNamed name header ↔ image.headerNamed? name = some header := by
  simp only [headerNamed?, List.find?_eq_some_iff_append, beq_iff_eq, Bool.not_eq_true',
    beq_eq_false_iff_ne, ne_eq, ← Pe.SectionHeader.isNamed_iff]
  exact ⟨fun first => ⟨first.named, first.first⟩, fun found => ⟨found.1, found.2⟩⟩

theorem headerNamed?_eq_none_iff :
    image.headerNamed? name = none ↔ ∀ header ∈ image.headers, ¬ header.IsNamed name := by
  simp only [headerNamed?, List.find?_eq_none, beq_iff_eq, Pe.SectionHeader.isNamed_iff]

theorem bytesOf?_of_firstNamed (first : image.FirstNamed name header) :
    image.bytesOf? name = image.contentsOf? header := by
  unfold bytesOf?
  rw [firstNamed_iff.1 first, Option.bind_some]

theorem addressOf?_of_firstNamed (first : image.FirstNamed name header) :
    image.addressOf? name = some (image.imageBase + header.virtualAddress.toUInt64) := by
  unfold addressOf?
  rw [firstNamed_iff.1 first, Option.map_some]

theorem exists_firstNamed_of_bytesOf? (found : image.bytesOf? name = some contents) :
    ∃ header, image.FirstNamed name header ∧ header.Holds image.storage.contents contents := by
  obtain ⟨header, named, held⟩ := Option.bind_eq_some_iff.1 found
  exact ⟨header, firstNamed_iff.2 named, contentsOf?_eq_some_iff.1 held⟩

/-- No section is shown under a name that no header has. -/
theorem fst_ne_of_mem_filterMap {headers : List Pe.SectionHeader} {shown : String × Bytes}
    (others : ∀ other ∈ headers, ¬ other.IsNamed name)
    (inside : shown ∈ headers.filterMap fun header =>
      (image.contentsOf? header).map fun contents => (header.name, contents)) :
    shown.1 ≠ name := by
  obtain ⟨other, listed, same⟩ := List.mem_filterMap.1 inside
  obtain ⟨contents, -, rfl⟩ := Option.map_eq_some_iff.1 same
  exact fun named => others other listed (Pe.SectionHeader.isNamed_iff.2 named)

theorem answersByTable (image : PeImage) : image.AnswersByTable where
  shown := image.shows_sections
  unnamed name nobody := by
    have missing := headerNamed?_eq_none_iff.2 nobody
    unfold bytesOf? addressOf?
    rw [missing]
    exact ⟨rfl, rfl⟩
  bytes name header first contents := by
    rw [bytesOf?_of_firstNamed first, contentsOf?_eq_some_iff]
  address name header first := by
    refine ⟨_, addressOf?_of_firstNamed first, ?_⟩
    rw [UInt64.toNat_add, UInt32.toNat_toUInt64]
  agree name contents found := by
    obtain ⟨header, first, held⟩ := exists_firstNamed_of_bytesOf? found
    obtain ⟨before, after, whole, others⟩ := first.first
    unfold sections
    rw [whole, List.filterMap_append,
      List.filterMap_cons_some (by rw [contentsOf?_eq_some_iff.2 held]; rfl),
      Pe.SectionHeader.isNamed_iff.1 first.named]
    exact ⟨_, _, rfl, fun earlier inside => fst_ne_of_mem_filterMap others inside⟩

theorem contentsOf?_mapped (image : PeImage) : image.mapped.contentsOf? = image.contentsOf? :=
  funext fun header => image.storage.range?_mapping header.contentsRange.1 header.contentsRange.2

/--
The sections of an image are those whose ranges lie inside its file, in the
order of its table, under their names and with their bytes.  The first header of
a name answers a look-up for its bytes and for its address, so bytes that are
found are those of the first section shown under the name.  By whatever reader a
file is loaded, if the reader keeps to the order of the file, the headers of the
image are those that its file lists, and any other such reader finds the same
sections; the reader that follows imports is such a one.  The same file
describes the same image over a buffer and over a mapping, which answer every
range alike.
-/
theorem sections_agree_with_lookups :
    (∀ image : PeImage, image.AnswersByTable) ∧
    (∀ (header : Pe.SectionHeader) (file : Bytes), (∃ contents, header.Holds file contents) ↔
      header.contentsRange.1 + header.contentsRange.2 ≤ file.length) ∧
    (∀ read : Pe.Reader, read.InFileOrder → ∀ storage image, load read storage = .ok image →
      image.storage = storage ∧ ∃ file, image.HasTable file) ∧
    (∀ read other : Pe.Reader, read.InFileOrder → other.InFileOrder → ∀ storage image same,
      load read storage = .ok image → load other storage = .ok same →
        image.sections = same.sections ∧ image.bytesOf? = same.bytesOf?) ∧
    Pe.Reader.InFileOrder importReader ∧
    (∀ (read : Pe.Reader) storage,
      load read (.mapping storage.contents) = (load read storage).map mapped) ∧
    (∀ contents, ofFile (some contents) = (ofBuffer contents).map mapped) ∧
    (∀ image : PeImage, image.mapped.sections = image.sections ∧
      image.mapped.bytesOf? = image.bytesOf? ∧ image.mapped.addressOf? = image.addressOf?) ∧
    ∀ storage : Storage, storage.contents.length < UInt64.size → storage.AnswersRanges := by
  refine ⟨answersByTable, fun _ _ => Pe.SectionHeader.exists_holds_iff,
    fun _ ordered _ _ => hasTable_of_load ordered,
    fun _ _ ordered alsoOrdered _ _ _ => sections_eq_of_load ordered alsoOrdered,
    importReader_inFileOrder, load_mapping,
    fun contents => load_mapping importReader (.buffer contents),
    fun image => ⟨?_, ?_, rfl⟩, fun storage => storage.answersRanges⟩
  · unfold sections
    rw [contentsOf?_mapped]
    rfl
  · unfold bytesOf?
    rw [contentsOf?_mapped]
    rfl

/-- A table of three sections whose first two have one name; the first lies outside the file. -/
def clashingFile : Bytes :=
  -- The stub, the file header and the optional header.
  [0x4D, 0x5A] ++ List.replicate 58 0 ++ [0x40, 0, 0, 0] ++
  [0x50, 0x45, 0, 0, 0x4C, 1, 3, 0] ++ List.replicate 12 0 ++ [0x60, 0, 2, 1] ++
  [0x0B, 1] ++ List.replicate 14 0 ++ [0, 0x10, 0, 0] ++ List.replicate 8 0 ++
  [0, 0, 0x40, 0, 0, 0x10, 0, 0, 0, 2, 0, 0] ++ List.replicate 56 0 ++
  -- The section headers and four bytes of contents.
  [0x2E, 0x61, 0, 0, 0, 0, 0, 0, 4, 0, 0, 0, 0, 0x10, 0, 0, 4, 0, 0, 0, 0, 0x10, 0, 0] ++
  List.replicate 16 0 ++
  [0x2E, 0x61, 0, 0, 0, 0, 0, 0, 2, 0, 0, 0, 0, 0x20, 0, 0, 4, 0, 0, 0, 0x30, 1, 0, 0] ++
  List.replicate 16 0 ++
  [0x2E, 0x62, 0, 0, 0, 0, 0, 0, 0, 0, 0, 0, 0, 0x30, 0, 0, 3, 0, 0, 0, 0x31, 1, 0, 0] ++
  List.replicate 16 0 ++
  [1, 2, 3, 4]

def outsideSection : Pe.SectionHeader :=
  ⟨[0x2E, 0x61, 0, 0, 0, 0, 0, 0], none, 4, 0x1000, 4, 0x1000⟩

def clashingImage : PeImage where
  storage := .buffer clashingFile
  width := .bits32
  imageBase := 0x400000
  entryPoint := 0x1000
  directories := []
  headers :=
    [outsideSection,
      ⟨[0x2E, 0x61, 0, 0, 0, 0, 0, 0], none, 2, 0x2000, 4, 0x130⟩,
      ⟨[0x2E, 0x62, 0, 0, 0, 0, 0, 0], none, 0, 0x3000, 3, 0x131⟩]

theorem firstNamed_outsideSection : clashingImage.FirstNamed ".a" outsideSection :=
  firstNamed_iff.2 (by decide +kernel)

/--
The section outside the file is the one that answers, though one inside has its
name.  A reader that does not follow imports finds the same sections.
-/
theorem clashingFile_sections :
    load importReader (.buffer clashingFile) = .ok clashingImage ∧
    (∃ file, clashingImage.HasTable file) ∧
    (∃ same, load headers? (.buffer clashingFile) = .ok same ∧
      clashingImage.sections = same.sections) ∧
    clashingImage.sections = [(".a", [1, 2]), (".b", [2, 3, 4])] ∧
    clashingImage.FirstNamed ".a" outsideSection ∧
    clashingImage.bytesOf? ".a" = none ∧
    (∃ address, clashingImage.addressOf? ".a" = some address ∧ address.toNat = 0x401000) ∧
    (∃ before after, clashingImage.sections = before ++ (".b", [2, 3, 4]) :: after ∧
      ∀ earlier ∈ before, earlier.1 ≠ ".b") ∧
    (clashingImage.bytesOf? ".c" = none ∧ clashingImage.addressOf? ".c" = none) ∧
    (Storage.buffer clashingFile).AnswersRanges := by
  obtain ⟨answers, -, listed, alike, ordered, -, -, -, ranges⟩ := sections_agree_with_lookups
  have loaded : load importReader (.buffer clashingFile) = .ok clashingImage := by decide +kernel
  have alsoLoaded : load headers? (.buffer clashingFile) = .ok clashingImage := by decide +kernel
  have first := firstNamed_outsideSection
  have unnamed : ∀ header ∈ clashingImage.headers, ¬ header.IsNamed ".c" :=
    headerNamed?_eq_none_iff.1 (by decide +kernel)
  exact ⟨loaded, (listed _ ordered _ _ loaded).2,
    ⟨_, alsoLoaded, (alike _ _ ordered headers?_inFileOrder _ _ _ loaded alsoLoaded).1⟩,
    by decide +kernel, first, by decide +kernel,
    (answers clashingImage).address _ _ first,
    (answers clashingImage).agree _ _ (by decide +kernel),
    (answers clashingImage).unnamed _ unnamed, ranges _ (by decide +kernel)⟩

end PeImage

end NtTarget
