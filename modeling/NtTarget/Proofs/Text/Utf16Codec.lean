import Mathlib.Data.List.TakeWhile
import NtTarget.Text.Utf16

/-!
# UTF-16 text reads back

A character is written as one unit that is no surrogate, or as a high and a low
surrogate that follow each other.  Decoding tells the two forms apart by their
first unit, so a text without a zero character reads back as it was.
-/

namespace NtTarget.Utf16

/-- What the units of one character can be. -/
inductive WritesChar (c : Char) : List UInt16 → Prop where
  | single {unit : UInt16} (value : unit.toNat = c.toNat) (notHigh : isHigh unit = false)
      (notLow : isLow unit = false) : WritesChar c [unit]
  | pair {high low : UInt16} (isHigh : isHigh high = true) (isLow : isLow low = true)
      (joined : join high low = c) : WritesChar c [high, low]

theorem isHigh_iff {unit : UInt16} :
    isHigh unit = true ↔ 0xD800 ≤ unit.toNat ∧ unit.toNat < 0xDC00 := by
  simp [isHigh]

theorem isLow_iff {unit : UInt16} :
    isLow unit = true ↔ 0xDC00 ≤ unit.toNat ∧ unit.toNat < 0xE000 := by
  simp [isLow]

theorem writesChar_encodeChar (c : Char) : WritesChar c (encodeChar c) := by
  have valid : c.toNat < 0xD800 ∨ 0xDFFF < c.toNat ∧ c.toNat < 0x110000 := c.valid
  unfold encodeChar
  dsimp only
  split
  · rename_i basic
    have value : (UInt16.ofNat c.toNat).toNat = c.toNat := by
      rw [UInt16.toNat_ofNat']
      omega
    refine .single value ?_ ?_
    · rw [Bool.eq_false_iff, ne_eq, isHigh_iff, value]
      omega
    · rw [Bool.eq_false_iff, ne_eq, isLow_iff, value]
      omega
  · rename_i large
    have high : (UInt16.ofNat (0xD800 + (c.toNat - 0x10000) / 0x400)).toNat =
        0xD800 + (c.toNat - 0x10000) / 0x400 := by
      rw [UInt16.toNat_ofNat']
      omega
    have low : (UInt16.ofNat (0xDC00 + (c.toNat - 0x10000) % 0x400)).toNat =
        0xDC00 + (c.toNat - 0x10000) % 0x400 := by
      rw [UInt16.toNat_ofNat']
      omega
    refine .pair ?_ ?_ ?_
    · rw [isHigh_iff, high]
      omega
    · rw [isLow_iff, low]
      omega
    · have together : 0x10000 + 0x400 * (0xD800 + (c.toNat - 0x10000) / 0x400 - 0xD800) +
          (0xDC00 + (c.toNat - 0x10000) % 0x400 - 0xDC00) = c.toNat := by omega
      unfold join
      rw [high, low, together, Char.ofNat_toNat]

/-- A unit that is no high surrogate is decoded alone, whatever follows it. -/
theorem decodeUnits_cons_of_notHigh {unit : UInt16} (notHigh : isHigh unit = false)
    (rest : List UInt16) : decodeUnits (unit :: rest) = alone unit :: decodeUnits rest := by
  cases rest with
  | nil => rfl
  | cons next later => simp [decodeUnits, notHigh]

theorem decodeUnits_append_of_writesChar {c : Char} {units : List UInt16}
    (writes : WritesChar c units) (rest : List UInt16) :
    decodeUnits (units ++ rest) = c :: decodeUnits rest := by
  cases writes with
  | @single unit value notHigh notLow =>
      have known : alone unit = c := by
        unfold alone
        rw [notHigh, notLow, value, Char.ofNat_toNat]
        rfl
      rw [List.singleton_append, decodeUnits_cons_of_notHigh notHigh, known]
  | @pair high low isHigh isLow joined =>
      simp [decodeUnits, isHigh, isLow, joined]

@[simp] theorem decodeUnits_flatMap_encodeChar (text : List Char) :
    decodeUnits (text.flatMap encodeChar) = text := by
  induction text with
  | nil => rfl
  | cons c rest ih =>
      rw [List.flatMap_cons, decodeUnits_append_of_writesChar (writesChar_encodeChar c), ih]

/-- Only the zero character is written with a zero unit. -/
theorem WritesChar.ne_zero {c : Char} {units : List UInt16} (writes : WritesChar c units)
    (nonzero : c ≠ '\x00') {unit : UInt16} (inside : unit ∈ units) : unit ≠ 0 := by
  rintro rfl
  cases writes with
  | @single unit value notHigh notLow =>
      have zero : c.toNat = 0 := by
        rw [← value, ← List.mem_singleton.1 inside]
        rfl
      exact nonzero (Char.toNat_inj.1 zero)
  | @pair high low isHigh isLow joined =>
      rcases List.mem_cons.1 inside with rfl | last
      · exact absurd isHigh (by decide)
      · rw [← List.mem_singleton.1 last] at isLow
        exact absurd isLow (by decide)

theorem WritesChar.ne_nil {c : Char} {units : List UInt16} (writes : WritesChar c units) :
    units ≠ [] := by
  cases writes <;> exact List.cons_ne_nil _ _

/-- The units of a text end at their first zero unit where the text has its first zero character. -/
theorem takeWhile_flatMap_encodeChar (text : List Char) :
    (text.flatMap encodeChar).takeWhile (· != 0) =
      (text.takeWhile (· != '\x00')).flatMap encodeChar := by
  induction text with
  | nil => rfl
  | cons c rest ih =>
      by_cases zero : c = '\x00'
      · subst zero
        rfl
      · have nonzero : ∀ unit ∈ encodeChar c, (unit != 0) = true := by
          intro unit written
          rw [bne_iff_ne]
          exact (writesChar_encodeChar c).ne_zero zero written
        rw [List.flatMap_cons, List.takeWhile_append_of_pos nonzero, ih, List.takeWhile_cons,
          if_pos (bne_iff_ne.2 zero), List.flatMap_cons]

theorem textUnits_bytesOf_append {tail : Bytes} (ended : textUnits tail = [])
    (wide : List UInt16) :
    textUnits (bytesOf wide ++ tail) = wide.takeWhile (· != 0) := by
  unfold textUnits at ended ⊢
  rw [units_bytesOf_append, List.takeWhile_append, ended, List.append_nil]
  split
  · rename_i whole
    exact ((List.takeWhile_prefix _).eq_of_length whole).symm
  · rfl

/--
A text reads back up to its first zero character, whatever follows its bytes
behind a zero unit.
-/
theorem decode_encode_append {tail : Bytes} (ended : textUnits tail = []) (text : String) :
    decode (encode text ++ tail) = String.ofList (text.toList.takeWhile (· != '\x00')) := by
  unfold decode encode
  rw [textUnits_bytesOf_append ended, takeWhile_flatMap_encodeChar, decodeUnits_flatMap_encodeChar]

/-- A text without a zero character reads back from its bytes. -/
theorem decode_encode {text : String} (clean : '\x00' ∉ text.toList) :
    decode (encode text) = text := by
  have nonzero : ∀ c ∈ text.toList, (c != '\x00') = true := by
    intro c member
    rw [bne_iff_ne]
    rintro rfl
    exact clean member
  have read := decode_encode_append (show textUnits [] = [] from rfl) text
  rwa [List.append_nil, List.takeWhile_eq_self_iff.2 nonzero, String.ofList_toList] at read

theorem encode_ne_nil {text : String} (nonempty : text ≠ "") : encode text ≠ [] := by
  intro nothing
  have noUnits : text.toList.flatMap encodeChar = [] := by
    rw [← units_bytesOf (text.toList.flatMap encodeChar)]
    exact congrArg units nothing
  have noChars : text.toList = [] := by
    refine List.eq_nil_iff_forall_not_mem.2 fun c inside => ?_
    exact (writesChar_encodeChar c).ne_nil (List.flatMap_eq_nil_iff.1 noUnits c inside)
  exact nonempty (String.toList_eq_nil_iff.1 noChars)

end NtTarget.Utf16
