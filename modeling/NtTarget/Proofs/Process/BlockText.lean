import Mathlib.Algebra.Group.Nat.Defs
import Mathlib.Data.List.Forall2
import NtTarget.Proofs.Module.LibraryReading
import NtTarget.Proofs.Process.ThreadSlots

/-!
# The printed block reads back

A printed block is a heading and one line for each slot.  A documented slot is
shown by its name, whose place among the documented names gives the offset, and
any other slot by the offset itself.  A value has two digits for each byte of a
pointer, so already the first line tells the width.  A reader that knows the
label of the thread therefore recovers the whole block.
-/

namespace NtTarget

namespace Hex

/-- A number below the power of its width has no more digits than that. -/
theorem length_padded_of_lt {width number : Nat} (positive : 0 < width)
    (small : number < 16 ^ width) : (padded width number).toList.length = width := by
  rw [length_padded]
  exact Nat.max_eq_left ((Nat.length_toDigits_le_iff (by decide) positive).2 small)

end Hex

namespace PointerWidth

/-- Two hexadecimal digits name as many numbers as a byte. -/
theorem limit_bytes (width : PointerWidth) :
    LittleEndian.limit width.bytes = 16 ^ (2 * width.bytes) := by
  cases width <;> rfl

theorem length_hex {width : PointerWidth} {address : UInt64} (fits : width.Fits address) :
    (width.hex address).toList.length = 2 * width.bytes := by
  refine Hex.length_padded_of_lt (Nat.mul_pos (by decide) width.bytes_pos) ?_
  rw [← limit_bytes]
  exact fits

end PointerWidth

namespace ThreadBlock

/-- The digits that show a value, two for each byte of a pointer. -/
structure ShowsValue (width : PointerWidth) (value : UInt64) (digits : List Char) : Prop where
  length : digits.length = 2 * width.bytes
  writes : Hex.Writes digits value.toNat

/-- What the line of a slot says before it ends. -/
inductive Shows (width : PointerWidth) : ThreadSlot → List Char → Prop where
  | named {index : Nat} {name : String} {value : UInt64} {digits : List Char}
      (listed : fieldNames[index]? = some name) (shown : ShowsValue width value digits) :
      Shows width ⟨index * width.bytes, some name, value⟩
        (" ".toList ++ (column name).toList ++ " is 0x".toList ++ digits)
  | unnamed {offset : Nat} {value : UInt64} {place digits : List Char}
      (long : 4 ≤ place.length) (placed : Hex.Writes place offset)
      (shown : ShowsValue width value digits) :
      Shows width ⟨offset, none, value⟩
        ("TIB[0x".toList ++ place ++ "]".toList ++ " is 0x".toList ++ digits)

/-! ## The reader -/

/-- How a line names its slot. -/
inductive SlotLabel where
  | named (name : String)
  | unnamed (offset : Nat)

/-- A line taken apart into the label of its slot and the digits of the value. -/
structure PrintedSlot where
  label : SlotLabel
  digits : List Char

/-- The width of a pointer whose bytes have two of the digits each. -/
def PrintedSlot.width? (printed : PrintedSlot) : Option PointerWidth :=
  PointerWidth.ofBits? (4 * printed.digits.length)

def PrintedSlot.slot (printed : PrintedSlot) (width : PointerWidth) : ThreadSlot :=
  let value := UInt64.ofNat (Hex.value printed.digits)
  match printed.label with
  | .named name => ⟨fieldNames.idxOf name * width.bytes, some name, value⟩
  | .unnamed offset => ⟨offset, none, value⟩

/-- Read the label that a line starts with, and give back what follows it. -/
def readLabel? (text : List Char) : Option (SlotLabel × List Char) :=
  match Scan.afterLead? "TIB[0x".toList text with
  | some shown =>
      (Scan.upTo? ']' shown).map fun parts => (.unnamed (Hex.value parts.1), parts.2)
  | none => do
      let shown ← Scan.afterLead? " ".toList text
      let (name, rest) ← Scan.upTo? ' ' shown
      pure (.named (String.ofList name), rest)

def readLine? (text : List Char) : Option PrintedSlot := do
  let (label, rest) ← readLabel? text
  let digits ← Scan.afterLead? "is 0x".toList (rest.dropWhile (· == ' '))
  pure ⟨label, digits⟩

/-- The text in front of the digits of a block's address. -/
def opening (thread : String) : String :=
  "Thread Information Block " ++ thread ++ " at 0x"

/-- Read the block that was printed for a thread. -/
def read? (thread : String) (text : List Char) : Option ThreadBlock := do
  let shown ← Scan.afterLead? (opening thread).toList text
  let (address, rest) ← Scan.upTo? '\n' shown
  let printed ← (rest.splitOn '\n').dropLast.mapM readLine?
  let first ← printed.head?
  let width ← first.width?
  pure ⟨UInt64.ofNat (Hex.value address), width, printed.map (·.slot width)⟩

/-! ## One line -/

variable {width : PointerWidth} {data : Bytes} {slot : ThreadSlot} {shown : List Char}

theorem showsValue_hex {value : UInt64} (fits : width.Fits value) :
    ShowsValue width value (width.hex value).toList :=
  ⟨PointerWidth.length_hex fits, Hex.writes_padded _ _⟩

/-- The line of a slot that was decoded shows it. -/
theorem exists_shows_of_mem (member : slot ∈ slotsOf width data) :
    ∃ shown, (line width slot).toList = shown ++ ['\n'] ∧ Shows width slot shown := by
  obtain ⟨index, inside, -, rfl⟩ := mem_slotsOf_iff.1 member
  have fits : width.Fits (valueAt width data index) :=
    PointerWidth.fits_addressOf (Bytes.length_range (slot_fits inside))
  have valued := showsValue_hex fits
  unfold slotOf
  cases listed : fieldNames[index]? with
  | some name =>
      refine ⟨_, ?_, .named listed valued⟩
      simp [line, String.toList_append]
  | none =>
      refine ⟨_, ?_, .unnamed ?_ (Hex.writes_padded 4 _) valued⟩
      · simp [line, String.toList_append]
      · rw [Hex.length_padded]
        exact Nat.le_max_left _ _

example : line .bits32 ⟨0x12340, none, 0xDEAD⟩ = "TIB[0x12340] is 0x0000dead\n" := by
  decide +kernel

/-- Neither the space nor the newline that end what is read occurs in a documented name. -/
theorem notMem_of_mem_fieldNames {name : String} (listed : name ∈ fieldNames) :
    ' ' ∉ name.toList ∧ '\n' ∉ name.toList := by
  have all : ∀ name ∈ fieldNames, ' ' ∉ name.toList ∧ '\n' ∉ name.toList := by decide +kernel
  exact all name listed

/-- Documented names are distinct, so a name tells the index of its slot. -/
theorem idxOf_of_getElem? {index : Nat} {name : String} (listed : fieldNames[index]? = some name) :
    fieldNames.idxOf name = index := by
  have distinct : fieldNames.Nodup := by decide
  obtain ⟨inside, rfl⟩ := List.getElem?_eq_some_iff.1 listed
  exact distinct.idxOf_getElem index inside

theorem newline_notMem_column {name : String} (clean : '\n' ∉ name.toList) :
    '\n' ∉ (column name).toList := by
  unfold column List.rightpad
  rw [String.toList_ofList, List.mem_append, not_or]
  exact ⟨clean, fun inside => absurd (List.eq_of_mem_replicate inside) (by decide)⟩

theorem ShowsValue.newline_notMem {value : UInt64} {digits : List Char}
    (valued : ShowsValue width value digits) : '\n' ∉ digits :=
  valued.writes.notMem (by decide)

theorem newline_notMem_of_shows (shows : Shows width slot shown) : '\n' ∉ shown := by
  cases shows with
  | named listed valued =>
      have clean := newline_notMem_column
        (notMem_of_mem_fieldNames (List.mem_of_getElem? listed)).2
      simp [clean, valued.newline_notMem]
  | unnamed long placed valued =>
      have placeClean : '\n' ∉ _ := placed.notMem (by decide)
      simp [placeClean, valued.newline_notMem]

theorem ShowsValue.ofNat_value {value : UInt64} {digits : List Char}
    (valued : ShowsValue width value digits) : UInt64.ofNat (Hex.value digits) = value := by
  rw [valued.writes.reads, UInt64.ofNat_toNat]

theorem ShowsValue.width? {value : UInt64} {digits : List Char}
    (valued : ShowsValue width value digits) (label : SlotLabel) :
    PrintedSlot.width? ⟨label, digits⟩ = some width := by
  unfold PrintedSlot.width?
  rw [valued.length]
  cases width <;> rfl

/-- A name is read up to the space behind it, and the rest of its column is left. -/
theorem readLabel?_named {name : String} (clean : ' ' ∉ name.toList) (rest : List Char) :
    readLabel? (" ".toList ++ (column name).toList ++ ' ' :: rest) =
      some (.named name, List.replicate (28 - name.toList.length) ' ' ++ rest) := by
  -- The space that ends the column may as well stand in front of the padding.
  have moved : List.replicate (28 - name.toList.length) ' ' ++ ' ' :: rest =
      ' ' :: (List.replicate (28 - name.toList.length) ' ' ++ rest) := by
    rw [← List.cons_append, ← List.replicate_succ, List.replicate_succ', List.append_assoc]
    rfl
  have padded : (column name).toList ++ ' ' :: rest =
      name.toList ++ ' ' :: (List.replicate (28 - name.toList.length) ' ' ++ rest) := by
    unfold column List.rightpad
    rw [String.toList_ofList, List.append_assoc, moved]
  have other : ∀ text, Scan.afterLead? "TIB[0x".toList (" ".toList ++ text) = none :=
    fun _ => rfl
  unfold readLabel?
  rw [List.append_assoc, padded, other]
  dsimp only
  rw [Scan.afterLead?_append, Option.bind_eq_bind, Option.bind_some, Scan.upTo?_append clean,
    Option.bind_eq_bind, Option.bind_some, String.ofList_toList]
  rfl

theorem readLabel?_unnamed {place : List Char} {offset : Nat} (placed : Hex.Writes place offset)
    (rest : List Char) :
    readLabel? ("TIB[0x".toList ++ place ++ "]".toList ++ rest) = some (.unnamed offset, rest) := by
  have clean : ']' ∉ place := placed.notMem (by decide)
  have mark : "]".toList ++ rest = ']' :: rest := rfl
  unfold readLabel?
  rw [List.append_assoc, List.append_assoc, Scan.afterLead?_append, mark]
  dsimp only
  rw [Scan.upTo?_append clean, Option.map_some, placed.reads]

theorem readLine?_of_label {text digits : List Char} {label : SlotLabel} {count : Nat}
    (labelled : readLabel? text =
      some (label, List.replicate count ' ' ++ ("is 0x".toList ++ digits))) :
    readLine? text = some ⟨label, digits⟩ := by
  have stops : ("is 0x".toList ++ digits).dropWhile (· == ' ') = "is 0x".toList ++ digits := rfl
  have spaces : ∀ c ∈ List.replicate count ' ', (c == ' ') = true :=
    fun c inside => beq_iff_eq.2 (List.eq_of_mem_replicate inside)
  unfold readLine?
  rw [labelled, Option.bind_eq_bind, Option.bind_some]
  dsimp only
  rw [List.dropWhile_append_of_pos spaces, stops, Scan.afterLead?_append]
  rfl

/-- What a line shows of a slot is enough to know its width and, with it, the slot. -/
theorem readLine?_of_shows (shows : Shows width slot shown) :
    ∃ printed, readLine? shown = some printed ∧ printed.width? = some width ∧
      printed.slot width = slot := by
  cases shows with
  | @named index name value digits listed valued =>
      have clean := (notMem_of_mem_fieldNames (List.mem_of_getElem? listed)).1
      have labelled := readLabel?_named clean ("is 0x".toList ++ digits)
      have split : " ".toList ++ (column name).toList ++ " is 0x".toList ++ digits =
          " ".toList ++ (column name).toList ++ ' ' :: ("is 0x".toList ++ digits) := by
        rw [List.append_assoc]
        rfl
      refine ⟨⟨.named name, digits⟩, ?_, valued.width? _, ?_⟩
      · rw [split]
        exact readLine?_of_label labelled
      · unfold PrintedSlot.slot
        dsimp only
        rw [idxOf_of_getElem? listed, valued.ofNat_value]
  | @unnamed offset value place digits long placed valued =>
      have labelled : readLabel? ("TIB[0x".toList ++ place ++ "]".toList ++
          (" is 0x".toList ++ digits)) =
          some (.unnamed offset, List.replicate 1 ' ' ++ ("is 0x".toList ++ digits)) :=
        readLabel?_unnamed placed _
      refine ⟨⟨.unnamed offset, digits⟩, ?_, valued.width? _, ?_⟩
      · rw [List.append_assoc]
        exact readLine?_of_label labelled
      · unfold PrintedSlot.slot
        dsimp only
        rw [valued.ofNat_value]

/-! ## All lines -/

theorem splitOn_flatMap {lines : List (List Char)} (clean : ∀ line ∈ lines, '\n' ∉ line) :
    (lines.flatMap (· ++ ['\n'])).splitOn '\n' = lines ++ [[]] := by
  induction lines with
  | nil => rfl
  | cons line rest ih =>
      obtain ⟨cleanLine, cleanRest⟩ := List.forall_mem_cons.1 clean
      rw [List.flatMap_cons, List.append_assoc, List.singleton_append,
        List.splitOn_append_cons_self_of_not_mem cleanLine, ih cleanRest]
      rfl

variable {slots : List ThreadSlot} {lines : List (List Char)}

theorem exists_lines_of_subset (members : ∀ slot ∈ slots, slot ∈ slotsOf width data) :
    ∃ lines, (slots.flatMap fun slot => (line width slot).toList) = lines.flatMap (· ++ ['\n']) ∧
      List.Forall₂ (Shows width) slots lines := by
  induction slots with
  | nil => exact ⟨[], rfl, .nil⟩
  | cons slot rest ih =>
      obtain ⟨member, members⟩ := List.forall_mem_cons.1 members
      obtain ⟨shown, written, shows⟩ := exists_shows_of_mem member
      obtain ⟨lines, same, all⟩ := ih members
      refine ⟨shown :: lines, ?_, .cons shows all⟩
      rw [List.flatMap_cons, List.flatMap_cons, written, same]

theorem mapM_readLine? (all : List.Forall₂ (Shows width) slots lines) :
    ∃ printed, lines.mapM readLine? = some printed ∧ printed.map (·.slot width) = slots ∧
      ∀ each ∈ printed, each.width? = some width := by
  induction all with
  | nil => exact ⟨[], rfl, rfl, List.forall_mem_nil _⟩
  | cons shows _ ih =>
      obtain ⟨first, read, known, same⟩ := readLine?_of_shows shows
      obtain ⟨printed, readRest, sameRest, knownRest⟩ := ih
      refine ⟨first :: printed, ?_, ?_, List.forall_mem_cons.2 ⟨known, knownRest⟩⟩
      · rw [List.mapM_cons, read, readRest]
        rfl
      · rw [List.map_cons, same, sameRest]

theorem newline_notMem_of_forall₂ (all : List.Forall₂ (Shows width) slots lines) :
    ∀ line ∈ lines, '\n' ∉ line := by
  induction all with
  | nil => exact List.forall_mem_nil _
  | cons shows _ ih => exact List.forall_mem_cons.2 ⟨newline_notMem_of_shows shows, ih⟩

/-! ## The whole block -/

variable {block : ThreadBlock} {address : UInt64}

theorem eq_of_parse (decoded : parse address width data = .ok block) :
    14 * width.bytes ≤ data.length ∧ block = ⟨address, width, slotsOf width data⟩ := by
  by_cases long : 14 * width.bytes ≤ data.length
  · rw [parse_eq_ok address long] at decoded
    cases decoded
    exact ⟨long, rfl⟩
  · rw [parse_eq_error_iff.2 ⟨rfl, Nat.not_le.1 long⟩] at decoded
    cases decoded

/-- The text of a decoded block is its heading and a line that shows each slot. -/
theorem exists_lines_of_parse (decoded : parse address width data = .ok block) (thread : String) :
    ∃ lines, (block.render thread).toList =
        (block.heading thread).toList ++ lines.flatMap (· ++ ['\n']) ∧
      List.Forall₂ (Shows block.width) block.slots lines := by
  obtain ⟨-, rfl⟩ := eq_of_parse decoded
  obtain ⟨lines, same, all⟩ := exists_lines_of_subset fun slot member => member
  refine ⟨lines, ?_, all⟩
  unfold render
  rw [String.toList_ofList, same]

theorem heading_append (block : ThreadBlock) (thread : String) (rest : List Char) :
    (block.heading thread).toList ++ rest =
      (opening thread).toList ++ (Hex.digits block.address.toNat ++ '\n' :: rest) := by
  have mark : " at ".toList ++ "0x".toList = " at 0x".toList := rfl
  unfold heading opening Hex.marked Hex.text
  simp only [String.toList_append, String.toList_ofList, List.append_assoc, ← mark]
  rfl

/-- Every decoded block has a first line, which is the one of a documented slot. -/
theorem slotsOf_ne_nil (long : 14 * width.bytes ≤ data.length) : slotsOf width data ≠ [] := by
  have first : slotOf width data 0 ∈ slotsOf width data :=
    mem_slotsOf_iff.2 ⟨0, index_lt_of_documented long (by decide), .inl (by decide), rfl⟩
  exact List.ne_nil_of_mem first

theorem read?_render (decoded : parse address width data = .ok block) (thread : String) :
    read? thread (block.render thread).toList = some block := by
  obtain ⟨lines, text, all⟩ := exists_lines_of_parse decoded thread
  obtain ⟨printed, read, same, known⟩ := mapM_readLine? all
  have addressClean : '\n' ∉ Hex.digits block.address.toNat :=
    (Hex.writes_digits _).notMem (by decide)
  obtain ⟨long, rfl⟩ := eq_of_parse decoded
  cases printed with
  | nil =>
      -- A block without lines would not tell its width.
      exact absurd same.symm (slotsOf_ne_nil long)
  | cons first rest =>
      unfold read?
      rw [text, heading_append, Scan.afterLead?_append, Option.bind_eq_bind, Option.bind_some,
        Scan.upTo?_append addressClean, Option.bind_eq_bind, Option.bind_some]
      dsimp only
      rw [splitOn_flatMap (newline_notMem_of_forall₂ all), List.dropLast_concat, read]
      simp only [Option.bind_eq_bind, Option.bind_some, List.head?_cons,
        known first List.mem_cons_self, same, Hex.value_digits, UInt64.ofNat_toNat, Option.pure_def]

/--
The text of a decoded block is its heading and one line for each slot, with two
digits for each byte of the value and, where the slot has no name, all digits of
its offset; both read back to what was printed.  A reader that knows the label
of the thread recovers the block from its text, so no two different blocks have
the same one.
-/
theorem render_determines_block (decoded : parse address width data = .ok block)
    (thread : String) :
    (∃ lines, (block.render thread).toList =
        (block.heading thread).toList ++ lines.flatMap (· ++ ['\n']) ∧
      List.Forall₂ (Shows block.width) block.slots lines) ∧
    read? thread (block.render thread).toList = some block ∧
    ∀ otherAddress otherWidth otherData other,
      parse otherAddress otherWidth otherData = .ok other →
      block.render thread = other.render thread →
        block.width = other.width ∧ block.address = other.address ∧ block.slots = other.slots := by
  have read := read?_render decoded thread
  refine ⟨exists_lines_of_parse decoded thread, read, ?_⟩
  intro otherAddress otherWidth otherData other otherDecoded same
  rw [same, read?_render otherDecoded thread] at read
  cases read
  exact ⟨rfl, rfl, rfl⟩

/-- Fourteen slots that are zero and one behind them that is not. -/
def narrowBytes : Bytes :=
  List.replicate 56 0 ++ [0xAD, 0xDE, 0, 0x80]

/-- The same slots from more bytes: a slot that is zero and a last partial one. -/
def paddedBytes : Bytes :=
  narrowBytes ++ List.replicate 4 0 ++ [1, 2, 3]

def narrowBlock : ThreadBlock :=
  ⟨0x7FFDE000, .bits32, slotsOf .bits32 narrowBytes⟩

/-- Two byte strings that differ in bytes that are not shown have one text and the same slots. -/
theorem narrowBlock_reads_back :
    ⟨0x38, none, 0x8000DEAD⟩ ∈ narrowBlock.slots ∧
    read? "Thread 0x1a4" (narrowBlock.render "Thread 0x1a4").toList = some narrowBlock ∧
    ∃ other, parse 0x7FFDE000 .bits32 paddedBytes = .ok other ∧
      narrowBlock.render "Thread 0x1a4" = other.render "Thread 0x1a4" ∧
      narrowBlock.width = other.width ∧ narrowBlock.address = other.address ∧
      narrowBlock.slots = other.slots := by
  have decoded : parse 0x7FFDE000 .bits32 narrowBytes = .ok narrowBlock :=
    parse_eq_ok _ (by decide)
  have otherDecoded : parse 0x7FFDE000 .bits32 paddedBytes =
      .ok ⟨0x7FFDE000, .bits32, slotsOf .bits32 paddedBytes⟩ :=
    parse_eq_ok _ (by decide)
  have sameSlots : slotsOf .bits32 narrowBytes = slotsOf .bits32 paddedBytes := by
    decide +kernel
  have same : narrowBlock = ⟨0x7FFDE000, .bits32, slotsOf .bits32 paddedBytes⟩ := by
    unfold narrowBlock
    rw [sameSlots]
  obtain ⟨-, read, determined⟩ := render_determines_block decoded "Thread 0x1a4"
  refine ⟨by decide +kernel, read, _, otherDecoded, by rw [← same], ?_⟩
  exact determined _ _ _ _ otherDecoded (by rw [← same])

end ThreadBlock

end NtTarget
