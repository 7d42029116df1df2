import Mathlib.Data.List.Basic
import ClassLowering.Text.Utf8

/-! # Texts and their bytes

The bytes of a text are read back as the text (`Utf8.decode?_encodeChars`). A byte below 128 stands
for itself and is no part of any other character (`Utf8.eq_of_mem_encodeChar`), so a text may be
searched for such a character byte by byte. -/

namespace ClassLowering.Utf8

open String (utf8EncodeChar)

/-! ## Bytes of a text -/

/-- The bytes of an array from an index on, behind those that were taken. -/
theorem toList_loop (bytes : ByteArray) (index : Nat) (taken : List UInt8) :
    ByteArray.toList.loop bytes index taken = taken.reverse ++ bytes.data.toList.drop index := by
  fun_induction ByteArray.toList.loop bytes index taken with
  | case1 index taken inside step =>
    have bound : index < bytes.data.toList.length := by simpa using inside
    rw [step, List.drop_eq_getElem_cons bound]
    simp [ByteArray.get!, inside]
  | case2 index taken outside =>
    have past : bytes.data.toList.length ≤ index := by simpa using outside
    rw [List.drop_eq_nil_of_le past, List.append_nil]

/-- The bytes of characters. -/
def encodeChars (text : List Char) : List UInt8 := text.flatMap utf8EncodeChar

/-- A text is written character by character. -/
theorem encode_eq (text : String) : encode text = encodeChars text.toList := by
  have whole : text.toByteArray = text.toList.utf8Encode := by
    rw [← String.toByteArray_ofList, String.ofList_toList]
  rw [encode, ByteArray.toList, toList_loop, String.toUTF8_eq_toByteArray, whole, List.utf8Encode,
    List.toList_data_toByteArray, List.reverse_nil, List.nil_append, List.drop_zero, encodeChars]

/-- No characters have no bytes. -/
@[simp] theorem encodeChars_nil : encodeChars [] = [] := rfl

/-- The bytes of the first character come before those of the others. -/
theorem encodeChars_cons (letter : Char) (text : List Char) :
    encodeChars (letter :: text) = utf8EncodeChar letter ++ encodeChars text := rfl

/-- The bytes of some characters come before those of the characters behind. -/
theorem encodeChars_append (first second : List Char) :
    encodeChars (first ++ second) = encodeChars first ++ encodeChars second :=
  List.flatMap_append

/-- A character has one to four bytes, by its number. -/
theorem encodeChar_cases (letter : Char) {value : Nat} (same : letter.val.toNat = value) :
    (value ≤ 127 ∧ utf8EncodeChar letter = [.ofNat value]) ∨
    (127 < value ∧ value ≤ 2047 ∧
      utf8EncodeChar letter = [.ofNat (value / 64 + 192), .ofNat (value % 64 + 128)]) ∨
    (2047 < value ∧ value ≤ 65535 ∧ utf8EncodeChar letter =
      [.ofNat (value / 4096 + 224), .ofNat (value / 64 % 64 + 128), .ofNat (value % 64 + 128)]) ∨
    (65535 < value ∧ value < 1114112 ∧ utf8EncodeChar letter =
      [.ofNat (value / 262144 + 240), .ofNat (value / 4096 % 64 + 128),
        .ofNat (value / 64 % 64 + 128), .ofNat (value % 64 + 128)]) := by
  have bound : value < 1114112 := by
    rw [← same]
    rcases letter.valid with low | ⟨-, high⟩
    · exact Nat.lt_trans low (by decide)
    · exact high
  -- the upper bits of the first byte are not cut off, since the value is small enough
  by_cases one : value ≤ 127
  · refine .inl ⟨one, ?_⟩
    simp only [utf8EncodeChar, same, if_pos one]
  by_cases two : value ≤ 2047
  · refine .inr (.inl ⟨by omega, two, ?_⟩)
    have high : value / 64 % 32 = value / 64 := by omega
    simp only [utf8EncodeChar, same, if_neg one, if_pos two, high]
  by_cases three : value ≤ 65535
  · refine .inr (.inr (.inl ⟨by omega, three, ?_⟩))
    have high : value / 4096 % 16 = value / 4096 := by omega
    simp only [utf8EncodeChar, same, if_neg one, if_neg two, if_pos three, high]
  · refine .inr (.inr (.inr ⟨by omega, bound, ?_⟩))
    have high : value / 262144 % 8 = value / 262144 := by omega
    simp only [utf8EncodeChar, same, if_neg one, if_neg two, if_neg three, high]

/-! ## Bytes that stand for themselves -/

/-- A character below 128 is one byte. -/
theorem encodeChar_of_lt {letter : Char} (small : letter.toNat < 128) :
    utf8EncodeChar letter = [letter.toUInt8] := by
  have small : letter.val.toNat ≤ 127 := Nat.le_of_lt_succ small
  rw [utf8EncodeChar, if_pos small]
  rfl

/-- A byte below 128 is part of one character only. -/
theorem eq_of_mem_encodeChar {letter other : Char} (small : letter.toNat < 128)
    (listed : letter.toUInt8 ∈ utf8EncodeChar other) : other = letter := by
  have value : letter.toUInt8 = UInt8.ofNat letter.toNat := rfl
  -- all bytes of a longer character are at least 128
  have large (number : Nat) (many : 128 ≤ number) (few : number < 256) :
      letter.toUInt8 ≠ UInt8.ofNat number := by
    intro same
    rw [value, ← UInt8.toNat_inj, UInt8.toNat_ofNat_of_lt' (show _ < 256 by omega),
      UInt8.toNat_ofNat_of_lt' few] at same
    omega
  rcases encodeChar_cases other rfl with ⟨one, bytes⟩ | ⟨-, two, bytes⟩ | ⟨-, three, bytes⟩ |
    ⟨-, four, bytes⟩
  · rw [bytes, List.mem_singleton, value, ← UInt8.toNat_inj,
      UInt8.toNat_ofNat_of_lt' (show _ < 256 by omega),
      UInt8.toNat_ofNat_of_lt' (show _ < 256 by omega)] at listed
    exact Char.ext (UInt32.toNat_inj.1 listed.symm)
  all_goals
    simp only [bytes, List.mem_cons, List.not_mem_nil, or_false] at listed
  · rcases listed with first | second
    · exact absurd first (large _ (by omega) (by omega))
    · exact absurd second (large _ (by omega) (by omega))
  · rcases listed with first | second | third
    · exact absurd first (large _ (by omega) (by omega))
    · exact absurd second (large _ (by omega) (by omega))
    · exact absurd third (large _ (by omega) (by omega))
  · rcases listed with first | second | third | fourth
    · exact absurd first (large _ (by omega) (by omega))
    · exact absurd second (large _ (by omega) (by omega))
    · exact absurd third (large _ (by omega) (by omega))
    · exact absurd fourth (large _ (by omega) (by omega))

/-! ## Reading bytes back -/

/-- What a byte at the start of a character leads to, by its number. -/
theorem start_ofNat {number : Nat} (few : number < 256) :
    start (.ofNat number) =
      if number ≤ 0x7F then ([some (Char.ofNat number)], .between)
      else if number < 0xC2 then ([none], .between)
      else if number ≤ 0xDF then ([], .inside 0 0x80 0xBF (number % 32))
      else if number = 0xE0 then ([], .inside 1 0xA0 0xBF 0)
      else if number = 0xED then ([], .inside 1 0x80 0x9F 0xD)
      else if number ≤ 0xEF then ([], .inside 1 0x80 0xBF (number % 16))
      else if number = 0xF0 then ([], .inside 2 0x90 0xBF 0)
      else if number ≤ 0xF3 then ([], .inside 2 0x80 0xBF (number % 8))
      else if number = 0xF4 then ([], .inside 2 0x80 0x8F 4)
      else ([none], .between) := by
  simp only [start, UInt8.le_iff_toNat_le, UInt8.lt_iff_toNat_lt, ← UInt8.toNat_inj,
    UInt8.toNat_ofNat_of_lt' few]
  rfl

/-- Between characters a byte starts one. -/
theorem parts_between (byte : UInt8) (rest : List UInt8) :
    parts .between (byte :: rest) = (start byte).1 ++ parts (start byte).2 rest := rfl

section

variable {number value : Nat} {least greatest : UInt8} (few : number < 256)
  (low : least.toNat ≤ number) (high : number ≤ greatest.toNat)

include few low high

/-- A number between the bounds of a continuation gives a byte between them. -/
theorem inRange_ofNat : least ≤ UInt8.ofNat number ∧ UInt8.ofNat number ≤ greatest := by
  rw [UInt8.le_iff_toNat_le, UInt8.le_iff_toNat_le, UInt8.toNat_ofNat_of_lt' few]
  exact ⟨low, high⟩

/-- The last byte completes a character. -/
theorem parts_inside_zero (rest : List UInt8) :
    parts (.inside 0 least greatest value) (.ofNat number :: rest) =
      some (Char.ofNat (64 * value + number % 64)) :: parts .between rest := by
  rw [parts, step, if_pos (inRange_ofNat few low high), UInt8.toNat_ofNat_of_lt' few]
  rfl

/-- A byte before the last goes on with a character. -/
theorem parts_inside_succ (missing : Nat) (rest : List UInt8) :
    parts (.inside (missing + 1) least greatest value) (.ofNat number :: rest) =
      parts (.inside missing 0x80 0xBF (64 * value + number % 64)) rest := by
  rw [parts, step, if_pos (inRange_ofNat few low high), UInt8.toNat_ofNat_of_lt' few]
  rfl

end

/-- The first of three bytes; the second is in the range that it asks for. -/
theorem start_three {value : Nat} (more : 2047 < value) (most : value ≤ 65535)
    (valid : value < 0xD800 ∨ 0xDFFF < value) :
    ∃ least greatest,
      start (.ofNat (value / 4096 + 224)) = ([], .inside 1 least greatest (value / 4096)) ∧
      least.toNat ≤ value / 64 % 64 + 128 ∧ value / 64 % 64 + 128 ≤ greatest.toNat := by
  rw [start_ofNat (by omega), if_neg (by omega), if_neg (by omega), if_neg (by omega)]
  by_cases zero : value / 4096 = 0
  · refine ⟨0xA0, 0xBF, ?_, by change 160 ≤ _; omega, by change _ ≤ 191; omega⟩
    rw [if_pos (by omega), zero]
  rw [if_neg (by omega)]
  by_cases surrogates : value / 4096 = 13
  · refine ⟨0x80, 0x9F, ?_, by change 128 ≤ _; omega, by change _ ≤ 159; omega⟩
    rw [if_pos (by omega), surrogates]
  · refine ⟨0x80, 0xBF, ?_, by change 128 ≤ _; omega, by change _ ≤ 191; omega⟩
    have low : (value / 4096 + 224) % 16 = value / 4096 := by omega
    rw [if_neg (by omega), if_pos (by omega), low]

/-- The first of four bytes; the second is in the range that it asks for. -/
theorem start_four {value : Nat} (more : 65535 < value) (most : value < 1114112) :
    ∃ least greatest,
      start (.ofNat (value / 262144 + 240)) = ([], .inside 2 least greatest (value / 262144)) ∧
      least.toNat ≤ value / 4096 % 64 + 128 ∧ value / 4096 % 64 + 128 ≤ greatest.toNat := by
  rw [start_ofNat (by omega), if_neg (by omega), if_neg (by omega), if_neg (by omega),
    if_neg (by omega), if_neg (by omega), if_neg (by omega)]
  by_cases zero : value / 262144 = 0
  · refine ⟨0x90, 0xBF, ?_, by change 144 ≤ _; omega, by change _ ≤ 191; omega⟩
    rw [if_pos (by omega), zero]
  rw [if_neg (by omega)]
  by_cases last : value / 262144 = 4
  · refine ⟨0x80, 0x8F, ?_, by change 128 ≤ _; omega, by change _ ≤ 143; omega⟩
    rw [if_neg (by omega), if_pos (by omega), last]
  · refine ⟨0x80, 0xBF, ?_, by change 128 ≤ _; omega, by change _ ≤ 191; omega⟩
    have low : (value / 262144 + 240) % 8 = value / 262144 := by omega
    rw [if_pos (by omega), low]

/-- Bytes behind the second one are in the usual range. -/
theorem usual_range (number : Nat) :
    number % 64 + 128 < 256 ∧ (0x80 : UInt8).toNat ≤ number % 64 + 128 ∧
      number % 64 + 128 ≤ (0xBF : UInt8).toNat := by
  change _ ∧ 128 ≤ _ ∧ _ ≤ 191
  omega

/-- The bytes of a character are read as the character. -/
theorem parts_encodeChar (letter : Char) (rest : List UInt8) :
    parts .between (utf8EncodeChar letter ++ rest) = some letter :: parts .between rest := by
  obtain ⟨value, same⟩ : ∃ value, letter.val.toNat = value := ⟨_, rfl⟩
  have letterOf : Char.ofNat value = letter := by
    rw [← same]
    exact Char.ofNat_toNat letter
  -- surrogates are no characters
  have valid : value < 0xD800 ∨ 0xDFFF < value := by
    rw [← same]
    rcases letter.valid with low | ⟨high, -⟩
    · exact .inl low
    · exact .inr high
  obtain ⟨fewLast, lowLast, highLast⟩ := usual_range value
  rcases encodeChar_cases letter same with
    ⟨one, bytes⟩ | ⟨more, two, bytes⟩ | ⟨more, three, bytes⟩ | ⟨more, four, bytes⟩
  all_goals
    rw [bytes]
    simp only [List.cons_append, List.nil_append]
    rw [parts_between]
  · rw [start_ofNat (by omega), if_pos one, letterOf, List.singleton_append]
  · rw [start_ofNat (by omega), if_neg (by omega), if_neg (by omega), if_pos (by omega),
      List.nil_append, parts_inside_zero fewLast lowLast highLast]
    have whole : 64 * ((value / 64 + 192) % 32) + (value % 64 + 128) % 64 = value := by omega
    rw [whole, letterOf]
  · obtain ⟨least, greatest, started, low, high⟩ := start_three more three valid
    rw [started, List.nil_append, parts_inside_succ (by omega) low high,
      parts_inside_zero fewLast lowLast highLast]
    have whole : 64 * (64 * (value / 4096) + (value / 64 % 64 + 128) % 64) +
        (value % 64 + 128) % 64 = value := by omega
    rw [whole, letterOf]
  · obtain ⟨least, greatest, started, low, high⟩ := start_four more four
    obtain ⟨fewThird, lowThird, highThird⟩ := usual_range (value / 64)
    rw [started, List.nil_append, parts_inside_succ (by omega) low high,
      parts_inside_succ fewThird lowThird highThird, parts_inside_zero fewLast lowLast highLast]
    have whole : 64 * (64 * (64 * (value / 262144) + (value / 4096 % 64 + 128) % 64) +
        (value / 64 % 64 + 128) % 64) + (value % 64 + 128) % 64 = value := by omega
    rw [whole, letterOf]

/-- The bytes of characters are cut into these characters. -/
theorem parts_encodeChars (text : List Char) :
    parts .between (encodeChars text) = text.map some := by
  induction text with
  | nil => rfl
  | cons letter text step => rw [encodeChars_cons, parts_encodeChar, step, List.map_cons]

/-- The bytes of characters are read as the characters. -/
theorem decode?_encodeChars (text : List Char) :
    decode? (encodeChars text) = some (String.ofList text) := by
  have read : (text.map some).mapM id = some text := by
    induction text with
    | nil => rfl
    | cons letter text step => rw [List.map_cons, List.mapM_cons, step]; rfl
  rw [decode?, parts_encodeChars, read, Option.map_some]

end ClassLowering.Utf8
