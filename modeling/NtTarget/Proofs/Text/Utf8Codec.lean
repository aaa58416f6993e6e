import NtTarget.Text.Utf8

/-!
# UTF-8 text reads back

A character is written as one byte below 0x80, or as a lead byte and the one to
three bytes that complete it.  Decoding follows the same forms, so a text reads
back as it was.  Where decoding replaced nothing, the bytes are those of the
decoded text.
-/

namespace NtTarget.Utf8

/-- The bytes that complete a character which has begun. -/
inductive Completes : Pending → Bytes → Char → Prop where
  | last {low high payload : Nat} {byte : UInt8} {c : Char} (above : low ≤ byte.toNat)
      (below : byte.toNat ≤ high)
      (joined : Char.ofNat (64 * payload + (byte.toNat - 0x80)) = c) :
      Completes ⟨low, high, 0, payload⟩ [byte] c
  | more {low high owed payload : Nat} {byte : UInt8} {later : Bytes} {c : Char}
      (above : low ≤ byte.toNat) (below : byte.toNat ≤ high)
      (completes : Completes ⟨0x80, 0xBF, owed, 64 * payload + (byte.toNat - 0x80)⟩ later c) :
      Completes ⟨low, high, owed + 1, payload⟩ (byte :: later) c

/-- What the bytes of one character can be. -/
inductive WritesChar (c : Char) : Bytes → Prop where
  | ascii {byte : UInt8} (small : byte.toNat < 0x80) (value : Char.ofNat byte.toNat = c) :
      WritesChar c [byte]
  | led {lead : UInt8} {pending : Pending} {later : Bytes} (large : ¬ lead.toNat < 0x80)
      (begins : Pending.ofLead? lead.toNat = some pending)
      (completes : Completes pending later c) : WritesChar c (lead :: later)

/-! ## Lead bytes -/

section Lead

variable {lead : Nat}

theorem Pending.ofLead?_two (above : 0xC2 ≤ lead) (below : lead ≤ 0xDF) :
    ofLead? lead = some ⟨0x80, 0xBF, 0, lead - 0xC0⟩ := by
  unfold ofLead?
  rw [if_pos ⟨above, below⟩]

/-- Behind 0xE0 overlong forms are left out, and behind 0xED the surrogates. -/
theorem Pending.ofLead?_three (above : 0xE0 ≤ lead) (below : lead ≤ 0xEF) :
    ofLead? lead = some ⟨if lead = 0xE0 then 0xA0 else 0x80, if lead = 0xED then 0x9F else 0xBF,
      1, lead - 0xE0⟩ := by
  unfold ofLead?
  rw [if_neg (by omega)]
  by_cases first : lead = 0xE0
  · subst first
    rfl
  · rw [if_neg first, if_neg first]
    by_cases surrogate : lead = 0xED
    · subst surrogate
      rfl
    · rw [if_neg surrogate, if_neg surrogate, if_pos (by omega)]

/-- Behind 0xF0 overlong forms are left out, and behind 0xF4 what no character has. -/
theorem Pending.ofLead?_four (above : 0xF0 ≤ lead) (below : lead ≤ 0xF4) :
    ofLead? lead = some ⟨if lead = 0xF0 then 0x90 else 0x80, if lead = 0xF4 then 0x8F else 0xBF,
      2, lead - 0xF0⟩ := by
  unfold ofLead?
  rw [if_neg (by omega), if_neg (by omega), if_neg (by omega), if_neg (by omega)]
  by_cases first : lead = 0xF0
  · subst first
    rfl
  · rw [if_neg first, if_neg first]
    by_cases last : lead = 0xF4
    · subst last
      rfl
    · rw [if_neg last, if_neg last, if_pos (by omega)]

/-- Only the lead bytes of two, three and four bytes begin a character. -/
theorem Pending.lead_of_ofLead? {pending : Pending} (begins : ofLead? lead = some pending) :
    0xC2 ≤ lead ∧ lead ≤ 0xDF ∨ 0xE0 ≤ lead ∧ lead ≤ 0xEF ∨ 0xF0 ≤ lead ∧ lead ≤ 0xF4 := by
  unfold ofLead? at begins
  repeat' split at begins
  all_goals first | omega | cases begins

end Lead

/-! ## The bytes of a character -/

theorem toNat_ofNat_of_lt {number : Nat} (small : number < 256) :
    (UInt8.ofNat number).toNat = number := by
  rw [UInt8.toNat_ofNat', Nat.mod_eq_of_lt small]

theorem writesChar_encodeChar (c : Char) : WritesChar c (encodeChar c) := by
  have valid : c.toNat < 0xD800 ∨ 0xDFFF < c.toNat ∧ c.toNat < 0x110000 := c.valid
  have tail : ∀ number, (UInt8.ofNat (0x80 + number % 64)).toNat = 0x80 + number % 64 :=
    fun number => toNat_ofNat_of_lt (by omega)
  unfold encodeChar
  dsimp only
  split
  · rename_i ascii
    have byte := toNat_ofNat_of_lt (Nat.lt_trans ascii (by decide))
    refine .ascii (byte.symm ▸ ascii) ?_
    rw [byte, Char.ofNat_toNat]
  split
  · have lead := toNat_ofNat_of_lt (show 0xC0 + c.toNat / 64 < 256 by omega)
    have number : 64 * (0xC0 + c.toNat / 64 - 0xC0) + (0x80 + c.toNat % 64 - 0x80) = c.toNat := by
      omega
    refine .led ?_ (Pending.ofLead?_two ?_ ?_) (.last ?_ ?_ ?_)
    · omega
    · omega
    · omega
    · rw [tail]
      omega
    · rw [tail]
      omega
    · rw [lead, tail, number, Char.ofNat_toNat]
  split
  · have lead := toNat_ofNat_of_lt (show 0xE0 + c.toNat / 4096 < 256 by omega)
    have number : 64 * (64 * (0xE0 + c.toNat / 4096 - 0xE0) + (0x80 + c.toNat / 64 % 64 - 0x80)) +
        (0x80 + c.toNat % 64 - 0x80) = c.toNat := by
      omega
    refine .led ?_ (Pending.ofLead?_three ?_ ?_) (.more ?_ ?_ (.last ?_ ?_ ?_))
    · omega
    · omega
    · omega
    · rw [tail]
      split <;> omega
    · rw [tail]
      split <;> omega
    · rw [tail]
      omega
    · rw [tail]
      omega
    · rw [lead, tail, tail, number, Char.ofNat_toNat]
  · have lead := toNat_ofNat_of_lt (show 0xF0 + c.toNat / 262144 < 256 by omega)
    have number : 64 * (64 * (64 * (0xF0 + c.toNat / 262144 - 0xF0) +
        (0x80 + c.toNat / 4096 % 64 - 0x80)) + (0x80 + c.toNat / 64 % 64 - 0x80)) +
        (0x80 + c.toNat % 64 - 0x80) = c.toNat := by
      omega
    refine .led ?_ (Pending.ofLead?_four ?_ ?_) (.more ?_ ?_ (.more ?_ ?_ (.last ?_ ?_ ?_)))
    · omega
    · omega
    · omega
    · rw [tail]
      split <;> omega
    · rw [tail]
      split <;> omega
    · rw [tail]
      omega
    · rw [tail]
      omega
    · rw [tail]
      omega
    · rw [tail]
      omega
    · rw [lead, tail, tail, tail, number, Char.ofNat_toNat]

theorem ofNat_eq_of_toNat_eq (byte : UInt8) {number : Nat} (value : byte.toNat = number) :
    UInt8.ofNat number = byte := by
  rw [← value, UInt8.ofNat_toNat]

/-- The bytes of the character that a number stands for. -/
theorem encodeChar_ofNat {number : Nat} (valid : number.isValidChar) :
    encodeChar (Char.ofNat number) =
      if number < 0x80 then [UInt8.ofNat number]
      else if number < 0x800 then
        [UInt8.ofNat (0xC0 + number / 64), UInt8.ofNat (0x80 + number % 64)]
      else if number < 0x10000 then
        [UInt8.ofNat (0xE0 + number / 4096), UInt8.ofNat (0x80 + number / 64 % 64),
          UInt8.ofNat (0x80 + number % 64)]
      else
        [UInt8.ofNat (0xF0 + number / 262144), UInt8.ofNat (0x80 + number / 4096 % 64),
          UInt8.ofNat (0x80 + number / 64 % 64), UInt8.ofNat (0x80 + number % 64)] := by
  have scalar : (Char.ofNat number).toNat = number := by
    rw [Char.ofNat, dif_pos valid]
    rfl
  unfold encodeChar
  rw [scalar]

section Joined

variable {lead second third fourth : UInt8}

theorem encodeChar_two (above : 0xC2 ≤ lead.toNat) (below : lead.toNat ≤ 0xDF)
    (low : 0x80 ≤ second.toNat) (high : second.toNat ≤ 0xBF) :
    encodeChar (Char.ofNat (64 * (lead.toNat - 0xC0) + (second.toNat - 0x80))) =
      [lead, second] := by
  obtain ⟨number, value⟩ : ∃ number, number = 64 * (lead.toNat - 0xC0) + (second.toNat - 0x80) :=
    ⟨_, rfl⟩
  rw [← value, encodeChar_ofNat (.inl (by omega)), if_neg (by omega), if_pos (by omega)]
  rw [ofNat_eq_of_toNat_eq lead (by omega),
    ofNat_eq_of_toNat_eq second (by omega)]

theorem encodeChar_three (above : 0xE0 ≤ lead.toNat) (below : lead.toNat ≤ 0xEF)
    (low : (if lead.toNat = 0xE0 then 0xA0 else 0x80) ≤ second.toNat)
    (high : second.toNat ≤ if lead.toNat = 0xED then 0x9F else 0xBF)
    (thirdLow : 0x80 ≤ third.toNat) (thirdHigh : third.toNat ≤ 0xBF) :
    encodeChar (Char.ofNat (64 * (64 * (lead.toNat - 0xE0) + (second.toNat - 0x80)) +
      (third.toNat - 0x80))) = [lead, second, third] := by
  obtain ⟨number, value⟩ : ∃ number, number =
    64 * (64 * (lead.toNat - 0xE0) + (second.toNat - 0x80)) + (third.toNat - 0x80) := ⟨_, rfl⟩
  have tail : 0x80 ≤ second.toNat ∧ second.toNat ≤ 0xBF := by
    constructor
    · split at low <;> omega
    · split at high <;> omega
  have least : 0x800 ≤ number := by
    split at low <;> omega
  have valid : number.isValidChar := by
    unfold Nat.isValidChar
    split at high <;> omega
  rw [← value, encodeChar_ofNat valid, if_neg (by omega), if_neg (by omega), if_pos (by omega)]
  rw [ofNat_eq_of_toNat_eq lead (by omega),
    ofNat_eq_of_toNat_eq second (by omega),
    ofNat_eq_of_toNat_eq third (by omega)]

theorem encodeChar_four (above : 0xF0 ≤ lead.toNat) (below : lead.toNat ≤ 0xF4)
    (low : (if lead.toNat = 0xF0 then 0x90 else 0x80) ≤ second.toNat)
    (high : second.toNat ≤ if lead.toNat = 0xF4 then 0x8F else 0xBF)
    (thirdLow : 0x80 ≤ third.toNat) (thirdHigh : third.toNat ≤ 0xBF)
    (fourthLow : 0x80 ≤ fourth.toNat) (fourthHigh : fourth.toNat ≤ 0xBF) :
    encodeChar (Char.ofNat (64 * (64 * (64 * (lead.toNat - 0xF0) + (second.toNat - 0x80)) +
      (third.toNat - 0x80)) + (fourth.toNat - 0x80))) = [lead, second, third, fourth] := by
  obtain ⟨number, value⟩ : ∃ number, number =
    64 * (64 * (64 * (lead.toNat - 0xF0) + (second.toNat - 0x80)) + (third.toNat - 0x80)) +
      (fourth.toNat - 0x80) := ⟨_, rfl⟩
  have tail : 0x80 ≤ second.toNat ∧ second.toNat ≤ 0xBF := by
    constructor
    · split at low <;> omega
    · split at high <;> omega
  have least : 0x10000 ≤ number := by
    split at low <;> omega
  have most : number < 0x110000 := by
    split at high <;> omega
  have valid : number.isValidChar := .inr ⟨by omega, most⟩
  rw [← value, encodeChar_ofNat valid, if_neg (by omega), if_neg (by omega), if_neg (by omega)]
  rw [ofNat_eq_of_toNat_eq lead (by omega),
    ofNat_eq_of_toNat_eq second (by omega),
    ofNat_eq_of_toNat_eq third (by omega),
    ofNat_eq_of_toNat_eq fourth (by omega)]

end Joined

/-- No other bytes than its own write a character. -/
theorem WritesChar.encodeChar_eq {c : Char} {bytes : Bytes} (writes : WritesChar c bytes) :
    encodeChar c = bytes := by
  cases writes with
  | @ascii byte small value =>
      subst value
      rw [encodeChar_ofNat (.inl (by omega)), if_pos small, UInt8.ofNat_toNat]
  | @led lead pending later large begins completes =>
      rcases Pending.lead_of_ofLead? begins with ⟨above, below⟩ | ⟨above, below⟩ | ⟨above, below⟩
      · rw [Pending.ofLead?_two above below] at begins
        cases begins
        cases completes with
        | last low high joined =>
            subst joined
            exact encodeChar_two above below low high
      · rw [Pending.ofLead?_three above below] at begins
        cases begins
        cases completes with
        | more low high completes =>
            cases completes with
            | last thirdLow thirdHigh joined =>
                subst joined
                exact encodeChar_three above below low high thirdLow thirdHigh
      · rw [Pending.ofLead?_four above below] at begins
        cases begins
        cases completes with
        | more low high completes =>
            cases completes with
            | more thirdLow thirdHigh completes =>
                cases completes with
                | last fourthLow fourthHigh joined =>
                    subst joined
                    exact encodeChar_four above below low high thirdLow thirdHigh fourthLow
                      fourthHigh

theorem WritesChar.ne_nil {c : Char} {bytes : Bytes} (writes : WritesChar c bytes) :
    bytes ≠ [] := by
  cases writes <;> exact List.cons_ne_nil _ _

/-- Only the zero character is written with a zero byte. -/
theorem zero_notMem_encodeChar {c : Char} (nonzero : c ≠ '\x00') : (0 : UInt8) ∉ encodeChar c := by
  have valid : c.toNat < 0xD800 ∨ 0xDFFF < c.toNat ∧ c.toNat < 0x110000 := c.valid
  have positive : c.toNat ≠ 0 := fun zero => nonzero (Char.toNat_inj.1 zero)
  intro inside
  unfold encodeChar at inside
  dsimp only at inside
  repeat' split at inside
  all_goals
    simp only [List.mem_cons, List.not_mem_nil, or_false, ← UInt8.toNat_inj, UInt8.toNat_zero,
      UInt8.toNat_ofNat'] at inside
    omega

/-- The bytes of a character are those that strings keep of it. -/
theorem encodeChar_eq_utf8EncodeChar (c : Char) : encodeChar c = String.utf8EncodeChar c := by
  have valid : c.toNat < 0xD800 ∨ 0xDFFF < c.toNat ∧ c.toNat < 0x110000 := c.valid
  have last : 0x80 + c.toNat % 64 = c.toNat % 64 + 128 := Nat.add_comm _ _
  have third : 0x80 + c.toNat / 64 % 64 = c.toNat / 64 % 64 + 128 := Nat.add_comm _ _
  rw [String.utf8EncodeChar, Char.toNat_val]
  unfold encodeChar
  dsimp only
  by_cases one : c.toNat < 0x80
  · rw [if_pos one, if_pos (Nat.le_of_lt_succ one)]
  rw [if_neg one, if_neg (show ¬ c.toNat ≤ 127 by omega)]
  by_cases two : c.toNat < 0x800
  · have lead : 0xC0 + c.toNat / 64 = c.toNat / 64 % 32 + 192 := by omega
    rw [if_pos two, if_pos (Nat.le_of_lt_succ two), lead, last]
  rw [if_neg two, if_neg (show ¬ c.toNat ≤ 2047 by omega)]
  by_cases three : c.toNat < 0x10000
  · have lead : 0xE0 + c.toNat / 4096 = c.toNat / 4096 % 16 + 224 := by omega
    rw [if_pos three, if_pos (Nat.le_of_lt_succ three), lead, third, last]
  · have lead : 0xF0 + c.toNat / 262144 = c.toNat / 262144 % 8 + 240 := by omega
    have second : 0x80 + c.toNat / 4096 % 64 = c.toNat / 4096 % 64 + 128 := Nat.add_comm _ _
    rw [if_neg three, if_neg (show ¬ c.toNat ≤ 65535 by omega), lead, second, third, last]

theorem encode_eq_toUTF8 (text : String) : encode text = text.toUTF8.data.toList := by
  have kept : text.toUTF8 = text.toList.utf8Encode := by
    rw [String.toUTF8, ← String.toByteArray_ofList, String.ofList_toList]
  unfold encode
  rw [kept, List.utf8Encode, List.toList_data_toByteArray, funext encodeChar_eq_utf8EncodeChar]

/-! ## From text to bytes and back -/

theorem decodeFrom_append_of_completes {pending : Pending} {bytes : Bytes} {c : Char}
    (completes : Completes pending bytes c) (rest : Bytes) :
    decodeFrom (some pending) (bytes ++ rest) = c :: decodeFrom none rest := by
  induction completes with
  | last above below joined =>
      rw [List.singleton_append, decodeFrom_cons, step, Pending.step, if_pos ⟨above, below⟩,
        ← joined]
      rfl
  | more above below completes ih =>
      rw [List.cons_append, decodeFrom_cons, step, Pending.step, if_pos ⟨above, below⟩]
      exact ih

theorem decodeFrom_append_of_writesChar {c : Char} {bytes : Bytes} (writes : WritesChar c bytes)
    (rest : Bytes) : decodeFrom none (bytes ++ rest) = c :: decodeFrom none rest := by
  cases writes with
  | ascii small value =>
      rw [List.singleton_append, decodeFrom_cons, step, stepFresh, if_pos small, value]
      rfl
  | led large begins completes =>
      rw [List.cons_append, decodeFrom_cons, step, stepFresh, if_neg large, begins]
      exact decodeFrom_append_of_completes completes rest

@[simp] theorem decodeFrom_flatMap_encodeChar (text : List Char) :
    decodeFrom none (text.flatMap encodeChar) = text := by
  induction text with
  | nil => rfl
  | cons c rest ih =>
      rw [List.flatMap_cons, decodeFrom_append_of_writesChar (writesChar_encodeChar c), ih]

/-- Every text reads back from its bytes. -/
theorem decode_encode (text : String) : decode (encode text) = text := by
  unfold decode encode
  rw [decodeFrom_flatMap_encodeChar, String.ofList_toList]

theorem encode_inj {left right : String} : encode left = encode right ↔ left = right := by
  constructor
  · intro same
    rw [← decode_encode left, same, decode_encode]
  · rintro rfl
    rfl

/-! ## From bytes to text and back -/

/-- A character that has begun is completed, unless it is replaced. -/
theorem exists_completes {pending : Pending} {bytes : Bytes}
    (clean : replacement ∉ decodeFrom (some pending) bytes) :
    ∃ part rest c, bytes = part ++ rest ∧ Completes pending part c := by
  induction bytes generalizing pending with
  | nil => exact absurd (List.mem_singleton_self replacement) clean
  | cons byte later ih =>
      rw [decodeFrom_cons, step, Pending.step] at clean
      split at clean
      · rename_i inside
        obtain ⟨low, high, owed, payload⟩ := pending
        cases owed with
        | zero => exact ⟨[byte], later, _, rfl, .last inside.1 inside.2 rfl⟩
        | succ owed =>
            obtain ⟨part, rest, c, rfl, completes⟩ := ih clean
            exact ⟨byte :: part, rest, c, rfl, .more inside.1 inside.2 completes⟩
      · exact absurd (List.mem_append_left _ List.mem_cons_self) clean

theorem exists_writesChar {byte : UInt8} {later : Bytes}
    (clean : replacement ∉ decodeFrom none (byte :: later)) :
    ∃ part rest c, byte :: later = part ++ rest ∧ WritesChar c part := by
  rw [decodeFrom_cons, step, stepFresh] at clean
  split at clean
  · rename_i small
    exact ⟨[byte], later, _, rfl, .ascii small rfl⟩
  · rename_i large
    split at clean
    · rename_i begins
      obtain ⟨part, rest, c, rfl, completes⟩ := exists_completes clean
      exact ⟨byte :: part, rest, c, rfl, .led large begins completes⟩
    · exact absurd (List.mem_append_left _ (List.mem_singleton_self replacement)) clean

/-- Bytes of which nothing is replaced are the bytes of the text that they decode to. -/
theorem flatMap_encodeChar_decodeFrom {bytes : Bytes}
    (clean : replacement ∉ decodeFrom none bytes) :
    (decodeFrom none bytes).flatMap encodeChar = bytes := by
  -- The bytes of a character may be several, so the induction is on their number.
  induction size : bytes.length using Nat.strongRecOn generalizing bytes with
  | ind size ih =>
    cases bytes with
    | nil => rfl
    | cons byte later =>
        obtain ⟨part, rest, c, whole, writes⟩ := exists_writesChar clean
        have nonempty := List.length_pos_iff.2 writes.ne_nil
        rw [whole, decodeFrom_append_of_writesChar writes] at clean ⊢
        rw [whole, List.length_append] at size
        rw [List.flatMap_cons, writes.encodeChar_eq,
          ih rest.length (by omega) (List.not_mem_of_not_mem_cons clean) rfl]

theorem encode_decode {bytes : Bytes} (clean : replacement ∉ (decode bytes).toList) :
    encode (decode bytes) = bytes := by
  unfold decode encode at *
  rw [String.toList_ofList] at *
  exact flatMap_encodeChar_decodeFrom clean

/-- A text without a replacement is decoded from its own bytes only. -/
theorem decode_eq_iff {bytes : Bytes} {text : String} (clean : replacement ∉ text.toList) :
    decode bytes = text ↔ bytes = encode text := by
  constructor
  · rintro rfl
    exact (encode_decode clean).symm
  · rintro rfl
    exact decode_encode text

theorem zero_notMem_encode {text : String} (clean : '\x00' ∉ text.toList) :
    (0 : UInt8) ∉ encode text := by
  intro inside
  obtain ⟨c, member, written⟩ := List.mem_flatMap.1 inside
  have nonzero : c ≠ '\x00' := by
    rintro rfl
    exact clean member
  exact zero_notMem_encodeChar nonzero written

end NtTarget.Utf8
