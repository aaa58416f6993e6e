import NtTarget.Dump.Modules

/-!
# The library list reads back

A reader takes the document apart at its quotes: a name reaches to the next
double quote and so does an address.  Escaping leaves no quote inside a name
and is undone by replacing the five entities, so the reader finds the modules
that were written, whatever their names hold, and stops behind the document.
-/

namespace NtTarget

namespace Scan

/-- The text in front of the next mark, and what follows the mark. -/
def upTo? (mark : Char) : List Char → Option (List Char × List Char)
  | [] => none
  | c :: rest =>
      if c = mark then some ([], rest)
      else (upTo? mark rest).map fun parts => (c :: parts.1, parts.2)

theorem upTo?_append {mark : Char} {inside : List Char} (clean : mark ∉ inside)
    (after : List Char) : upTo? mark (inside ++ mark :: after) = some (inside, after) := by
  induction inside with
  | nil => exact if_pos rfl
  | cons c rest ih =>
      have other : c ≠ mark := fun same => clean (same ▸ List.mem_cons_self)
      have cleanRest : mark ∉ rest := fun later => clean (List.mem_cons_of_mem _ later)
      rw [List.cons_append, upTo?, if_neg other, ih cleanRest]
      rfl

theorem length_lt_of_upTo? {mark : Char} {text inside after : List Char}
    (found : upTo? mark text = some (inside, after)) : after.length < text.length := by
  induction text generalizing inside with
  | nil => cases found
  | cons c rest ih =>
      rw [upTo?] at found
      split at found
      · cases found
        exact Nat.lt_succ_self _
      · obtain ⟨parts, later, same⟩ := Option.map_eq_some_iff.1 found
        cases same
        exact Nat.lt_succ_of_lt (ih later)

theorem length_le_of_afterLead? {key text tail : List Char}
    (found : afterLead? key text = some tail) : tail.length ≤ text.length := by
  rw [afterLead?_eq_some_iff.1 found, List.length_append]
  exact Nat.le_add_left _ _

end Scan

namespace Markup

/-- How a character is written: as its entity if it is special, and as itself if not. -/
inductive WrittenAs : Char → List Char → Prop where
  | less : WrittenAs '<' ['&', 'l', 't', ';']
  | greater : WrittenAs '>' ['&', 'g', 't', ';']
  | ampersand : WrittenAs '&' ['&', 'a', 'm', 'p', ';']
  | apostrophe : WrittenAs '\'' ['&', 'a', 'p', 'o', 's', ';']
  | quote : WrittenAs '"' ['&', 'q', 'u', 'o', 't', ';']
  | plain {c : Char} (notSpecial : c ∉ ['<', '>', '&', '\'', '"']) : WrittenAs c [c]

theorem writtenAs_escapeChar (c : Char) : WrittenAs c (escapeChar c) := by
  unfold escapeChar entity?
  split <;> rename_i written
  · split at written <;> cases written
    · exact .less
    · exact .greater
    · exact .ampersand
    · exact .apostrophe
    · exact .quote
  · split at written <;> cases written
    refine .plain ?_
    simp_all

/-- A text with its five entities replaced, from left to right. -/
def unescape : List Char → List Char
  | '&' :: 'l' :: 't' :: ';' :: rest => '<' :: unescape rest
  | '&' :: 'g' :: 't' :: ';' :: rest => '>' :: unescape rest
  | '&' :: 'a' :: 'm' :: 'p' :: ';' :: rest => '&' :: unescape rest
  | '&' :: 'a' :: 'p' :: 'o' :: 's' :: ';' :: rest => '\'' :: unescape rest
  | '&' :: 'q' :: 'u' :: 'o' :: 't' :: ';' :: rest => '"' :: unescape rest
  | c :: rest => c :: unescape rest
  | [] => []

theorem unescape_cons {c : Char} (plain : c ≠ '&') (rest : List Char) :
    unescape (c :: rest) = c :: unescape rest := by
  rw [unescape.eq_def]
  split <;> simp_all

/-- What is written for a character reads back as that character, whatever follows it. -/
theorem WrittenAs.unescape_append {c : Char} {written : List Char} (writes : WrittenAs c written)
    (rest : List Char) : unescape (written ++ rest) = c :: unescape rest := by
  cases writes with
  | less | greater | ampersand | apostrophe | quote => rfl
  | plain notSpecial =>
      refine unescape_cons ?_ rest
      rintro rfl
      exact notSpecial (by decide)

theorem WrittenAs.quote_notMem {c : Char} {written : List Char} (writes : WrittenAs c written) :
    '"' ∉ written := by
  cases writes with
  | less | greater | ampersand | apostrophe | quote => decide
  | plain notSpecial =>
      intro inside
      rw [← List.mem_singleton.1 inside] at notSpecial
      exact notSpecial (by decide)

/-- A name that already holds entities reads back with them: each ampersand was written as one. -/
theorem unescape_escape (text : String) : unescape (escape text).toList = text.toList := by
  unfold escape
  rw [String.toList_ofList]
  induction text.toList with
  | nil => rfl
  | cons c rest ih => rw [List.flatMap_cons, (writtenAs_escapeChar c).unescape_append, ih]

theorem quote_notMem_escape (text : String) : '"' ∉ (escape text).toList := by
  unfold escape
  rw [String.toList_ofList]
  intro inside
  obtain ⟨c, -, written⟩ := List.mem_flatMap.1 inside
  exact (writtenAs_escapeChar c).quote_notMem written

end Markup

namespace LibraryList

/-- Read an address of 64 bits, which must be hexadecimal digits and nothing else. -/
def readAddress? (text : List Char) : Option UInt64 :=
  if text ≠ [] ∧ text.all Hex.isDigit ∧ Hex.value text < UInt64.size then
    some (UInt64.ofNat (Hex.value text))
  else none

def openingTag : String :=
  "<library-list>\n"

def closingTag : String :=
  "</library-list>\n"

def nameLead : String :=
  "<library name=\""

def addressLead : String :=
  "><segment address=\"0x"

def elementEnd : String :=
  "/></library>"

/-- Read the element of one module, and give back what follows it. -/
def readElement? (text : List Char) : Option (ModuleEntry × List Char) := do
  let named ← Scan.afterLead? nameLead.toList text
  let (name, behind) ← Scan.upTo? '"' named
  let placed ← Scan.afterLead? addressLead.toList behind
  let (digits, behind) ← Scan.upTo? '"' placed
  let address ← readAddress? digits
  let rest ← Scan.afterLead? elementEnd.toList behind
  pure (⟨String.ofList (Markup.unescape name), address⟩, rest)

/-- Every element takes some of the text. -/
theorem length_lt_of_readElement? {text rest : List Char} {entry : ModuleEntry}
    (found : readElement? text = some (entry, rest)) : rest.length < text.length := by
  simp only [readElement?, Option.bind_eq_bind, Option.bind_eq_some_iff] at found
  obtain ⟨named, lead, ⟨name, behind⟩, nameEnds, placed, second, ⟨digits, tail⟩, addressEnds,
    address, -, later, last, same⟩ := found
  cases same
  have first := Scan.length_le_of_afterLead? lead
  have nameShorter := Scan.length_lt_of_upTo? nameEnds
  have middle := Scan.length_le_of_afterLead? second
  have addressShorter := Scan.length_lt_of_upTo? addressEnds
  have final := Scan.length_le_of_afterLead? last
  dsimp only at middle final
  omega

/-- Read elements up to the closing tag, and give back what follows the document. -/
def readElements? (text : List Char) : Option (List ModuleEntry × List Char) :=
  match Scan.afterLead? closingTag.toList text with
  | some rest => some ([], rest)
  | none =>
      match _ : readElement? text with
      | none => none
      | some (entry, rest) =>
          (readElements? rest).map fun parts => (entry :: parts.1, parts.2)
termination_by text.length
decreasing_by exact length_lt_of_readElement? ‹_›

/-- Read a document, and give back what follows it. -/
def read? (text : List Char) : Option (List ModuleEntry × List Char) :=
  (Scan.afterLead? openingTag.toList text).bind readElements?

/-! ## What was written is read -/

theorem readAddress?_digits (address : UInt64) :
    readAddress? (Hex.digits address.toNat) = some address := by
  have valid : Hex.digits address.toNat ≠ [] ∧ (Hex.digits address.toNat).all Hex.isDigit ∧
      Hex.value (Hex.digits address.toNat) < UInt64.size := by
    refine ⟨Hex.digits_ne_nil _, List.all_eq_true.2 fun c inside => ?_, ?_⟩
    · exact Hex.isDigit_of_mem_digits inside
    · rw [Hex.value_digits]
      exact address.toNat_lt
  unfold readAddress?
  rw [if_pos valid, Hex.value_digits, UInt64.ofNat_toNat]

/-- An element is a name and an address, each up to a quote, between fixed texts. -/
theorem element_append (entry : ModuleEntry) (tail : List Char) :
    (element entry).toList ++ tail =
      nameLead.toList ++ ((Markup.escape entry.name).toList ++ '"' ::
        (addressLead.toList ++ (Hex.digits entry.address.toNat ++ '"' ::
          (elementEnd.toList ++ tail)))) := by
  have nameEnd : "\"><segment address=\"".toList ++ "0x".toList = '"' :: addressLead.toList := by
    simp [addressLead]
  have addressEnd : "\"/></library>".toList = '"' :: elementEnd.toList := by
    simp [elementEnd]
  rw [← List.cons_append, ← nameEnd, ← List.cons_append, ← addressEnd]
  unfold element Hex.marked Hex.text nameLead
  simp only [String.toList_append]
  rw [String.toList_ofList (l := Hex.digits entry.address.toNat)]
  simp only [List.append_assoc]

theorem readElement?_element_append (entry : ModuleEntry) (tail : List Char) :
    readElement? ((element entry).toList ++ tail) = some (entry, tail) := by
  have clean : '"' ∉ Hex.digits entry.address.toNat := by
    intro inside
    exact absurd (Hex.isDigit_of_mem_digits inside) (by decide)
  rw [element_append]
  unfold readElement?
  simp only [Scan.afterLead?_append, Scan.upTo?_append (Markup.quote_notMem_escape _),
    Scan.upTo?_append clean, readAddress?_digits, Markup.unescape_escape, Option.bind_eq_bind,
    Option.bind_some, Option.pure_def, String.ofList_toList]

theorem readElements?_of_closing {text rest : List Char}
    (closed : Scan.afterLead? closingTag.toList text = some rest) :
    readElements? text = some ([], rest) := by
  rw [readElements?, closed]

theorem readElements?_of_element {text rest : List Char} {entry : ModuleEntry}
    (notClosed : Scan.afterLead? closingTag.toList text = none)
    (found : readElement? text = some (entry, rest)) :
    readElements? text =
      (readElements? rest).map fun parts => (entry :: parts.1, parts.2) := by
  rw [readElements?, notClosed]
  dsimp only
  split
  · rename_i nothing
    rw [found] at nothing
    cases nothing
  · rename_i other after same
    rw [found] at same
    cases same
    rfl

/-- An element is not taken for the closing tag. -/
theorem afterLead?_closingTag_element (entry : ModuleEntry) (tail : List Char) :
    Scan.afterLead? closingTag.toList ((element entry).toList ++ tail) = none := by
  rw [element_append]
  simp [Scan.afterLead?, closingTag, nameLead]

theorem readElements?_append (modules : List ModuleEntry) (tail : List Char) :
    readElements? (modules.flatMap (fun entry => (element entry).toList) ++
      (closingTag.toList ++ tail)) = some (modules, tail) := by
  induction modules with
  | nil => exact readElements?_of_closing (Scan.afterLead?_append _ tail)
  | cons entry rest ih =>
      rw [List.flatMap_cons, List.append_assoc,
        readElements?_of_element (afterLead?_closingTag_element entry _)
          (readElement?_element_append entry _), ih]
      rfl

/-- A document reads back as the modules that it renders, whatever follows it. -/
theorem read?_render_append (modules : List ModuleEntry) (tail : List Char) :
    read? ((render modules).toList ++ tail) = some (modules, tail) := by
  have whole : (render modules).toList ++ tail =
      openingTag.toList ++ (modules.flatMap (fun entry => (element entry).toList) ++
        (closingTag.toList ++ tail)) := by
    simp only [render, opening, closing, openingTag, closingTag, String.toList_ofList,
      List.append_assoc]
  rw [whole, read?, Scan.afterLead?_append, Option.bind_some, readElements?_append]

theorem read?_render (modules : List ModuleEntry) :
    read? (render modules).toList = some (modules, []) := by
  have whole := read?_render_append modules []
  rwa [List.append_nil] at whole

theorem render_injective : Function.Injective render := by
  intro left right same
  have leftRead := read?_render left
  rw [same, read?_render right] at leftRead
  exact (Prod.mk.inj (Option.some.inj leftRead)).1.symm

/--
The library list document is unambiguous.  Names are written character by
character, the five special ones as their entities and all others as
themselves.  A reader that takes names and addresses up to the next quote and
replaces the five entities recovers the modules and stops where the document
ends, whatever the names hold and whatever follows; so two lists never render
to the same text, and the document of a dump lists the libraries of that dump
and nothing else.
-/
theorem document_reads_back :
    (∀ text, (Markup.escape text).toList = text.toList.flatMap Markup.escapeChar) ∧
    (∀ c, Markup.WrittenAs c (Markup.escapeChar c)) ∧
    (∀ modules tail, read? ((render modules).toList ++ tail) = some (modules, tail)) ∧
    Function.Injective render ∧
    ∀ dump : CoreDump,
      read? dump.libraryList.value.toList = some (dump.libraries.value, []) := by
  refine ⟨fun _ => String.toList_ofList, Markup.writtenAs_escapeChar, read?_render_append,
    render_injective, ?_⟩
  intro dump
  exact read?_render dump.libraries.value

end LibraryList

end NtTarget
