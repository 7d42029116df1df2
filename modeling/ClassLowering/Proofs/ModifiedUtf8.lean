import ClassLowering.Proofs.Utf8
import ClassLowering.Text.ModifiedUtf8

/-! # Texts and their modified UTF-8

What class files write for a text (`ModifiedUtf8.encode`) is well formed, and is read as a text with
the same number of characters (`ModifiedUtf8.decodeString_encode`). Characters of the first plane
and of all odd planes are read as themselves. A character of any other even plane is read as the one
at the same place of the plane before, because the bit that counts planes from one is set and not
added (`ModifiedUtf8.join_bits`). -/

namespace ClassLowering.ModifiedUtf8

/-! ## Writing texts -/

/-- The three bytes of a 16-bit unit. -/
def encodeUnit (unit : Nat) : List UInt8 :=
  [.ofNat (unit / 4096 + 224), .ofNat (unit / 64 % 64 + 128), .ofNat (unit % 64 + 128)]

/-- The bytes of a character: zero takes two bytes, and a character past the 16-bit range is written
as two surrogates. -/
def encodeChar (letter : Char) : List UInt8 :=
  let number := letter.toNat
  if number = 0 then [0xC0, 0x80]
  else if number < 0x80 then [.ofNat number]
  else if number < 0x800 then [.ofNat (number / 64 + 192), .ofNat (number % 64 + 128)]
  else if number < 0x10000 then encodeUnit number
  else encodeUnit (0xD800 + (number - 0x10000) / 1024) ++
    encodeUnit (0xDC00 + (number - 0x10000) % 1024)

/-- The bytes of a text. -/
def encode (text : String) : List UInt8 := text.toList.flatMap encodeChar

/-! ## What is read -/

/-- The plane of a character. -/
def plane (letter : Char) : Nat := letter.toNat / 0x10000

/-- The character is in the first plane or in an odd one. -/
def Survives (letter : Char) : Prop := plane letter = 0 ∨ plane letter % 2 = 1

instance (letter : Char) : Decidable (Survives letter) := inferInstanceAs (Decidable (_ ∨ _))

/-- The number of a character is below the end of all characters. -/
theorem toNat_lt (letter : Char) : letter.toNat < 0x110000 := by
  rcases letter.valid with low | ⟨-, high⟩
  · exact Nat.lt_trans low (by decide)
  · exact high

/-- A number of a character is kept by the character. -/
theorem toNat_charOfNat {number : Nat} (valid : number.isValidChar) :
    (Char.ofNat number).toNat = number := by
  rw [Char.ofNat, dif_pos valid]
  rfl

/-- What is read for a character: those of other planes fall into the plane before. -/
def merge (letter : Char) : Char :=
  if Survives letter then letter else Char.ofNat (letter.toNat - 0x10000)

/-- What is read for a text. -/
def mergeText (text : String) : String := String.ofList (text.toList.map merge)

/-- The place of a character in its plane does not change. -/
theorem toNat_merge {letter : Char} (lost : ¬Survives letter) :
    (merge letter).toNat + 0x10000 = letter.toNat := by
  have bound := toNat_lt letter
  have higher : 0x20000 ≤ letter.toNat := by
    simp only [Survives, plane] at lost
    omega
  have valid : (letter.toNat - 0x10000).isValidChar := .inr ⟨by omega, by omega⟩
  rw [merge, if_neg lost, toNat_charOfNat valid]
  omega

/-! ## Sequences of bytes -/

section

variable {first second third : UInt8} (rest : List UInt8)

/-- One byte is a character of its own, unless it is zero. -/
theorem decode_one (positive : 0 < first.toNat) (small : first.toNat ≤ 0x7F) :
    decode (first :: rest) = (Char.ofNat first.toNat :: ·) <$> decode rest := by
  have some : first ≠ 0x00 := by
    rintro rfl
    exact Nat.lt_irrefl 0 positive
  rw [decode.eq_def]
  dsimp only
  rw [if_neg some, if_pos (UInt8.le_iff_toNat_le.2 small)]

/-- A byte from `0xC0` on starts a longer sequence. -/
theorem not_short (large : 0xC0 ≤ first.toNat) :
    ¬first = 0x00 ∧ ¬first ≤ 0x7F ∧ ¬first ≤ 0xBF := by
  simp only [UInt8.le_iff_toNat_le, ← UInt8.toNat_inj, UInt8.reduceToNat]
  omega

/-- Two bytes are a character if they have the marks of two. -/
theorem decode_two (large : 0xC0 ≤ first.toNat) (small : first.toNat ≤ 0xDF)
    (valid : validTwo first second = true) :
    decode (first :: second :: rest) = (charTwo first second :: ·) <$> decode rest := by
  obtain ⟨some, many, more⟩ := not_short large
  rw [decode.eq_def]
  dsimp only
  rw [if_neg some, if_neg many, if_neg more, if_pos (UInt8.le_iff_toNat_le.2 small), if_pos valid]

/-- A byte from `0xE0` on starts a sequence of three bytes at least. -/
theorem not_two (large : 0xE0 ≤ first.toNat) :
    ¬first = 0x00 ∧ ¬first ≤ 0x7F ∧ ¬first ≤ 0xBF ∧ ¬first ≤ 0xDF := by
  obtain ⟨some, many, more⟩ := not_short (Nat.le_trans (by decide) large)
  refine ⟨some, many, more, fun two => ?_⟩
  have bound : first.toNat ≤ 0xDF := UInt8.le_iff_toNat_le.1 two
  omega

variable (large : 0xE0 ≤ first.toNat) (small : first.toNat ≤ 0xEF)
  (valid : validThree first second third = true)

include large small valid

/-- Three bytes are a character if they are no part of a pair. -/
theorem decode_three (notHigh : isHighSurrogate first second = false)
    (notLow : isLowSurrogate first second = false) :
    decode (first :: second :: third :: rest) =
      (charThree first second third :: ·) <$> decode rest := by
  obtain ⟨some, many, more, three⟩ := not_two large
  rw [decode.eq_def]
  dsimp only
  rw [if_neg some, if_neg many, if_neg more, if_neg three, if_pos (UInt8.le_iff_toNat_le.2 small),
    if_pos valid, if_neg (by simp [notHigh]), if_neg (by simp [notLow])]

/-- Six bytes are a character if they are a pair of surrogates. -/
theorem decode_pair {first' second' third' : UInt8} (high : isHighSurrogate first second = true)
    (low : isLowSurrogate first' second' = true) (ends : isContinuation third' = true) :
    decode (first :: second :: third :: first' :: second' :: third' :: rest) =
      (charPair second third second' third' :: ·) <$> decode rest := by
  obtain ⟨some, many, more, three⟩ := not_two large
  rw [decode.eq_def]
  dsimp only
  rw [if_neg some, if_neg many, if_neg more, if_neg three, if_pos (UInt8.le_iff_toNat_le.2 small),
    if_pos valid, if_pos high, if_pos (by simp [low, ends])]

end

/-! ## The bytes of characters -/

/-- Six bits behind the mark of a continuation are one. -/
theorem isContinuation_ofNat (number : Nat) :
    isContinuation (.ofNat (number % 64 + 128)) = true := by
  have value := UInt8.toNat_ofNat_of_lt' (show number % 64 + 128 < 256 by omega)
  simp only [isContinuation, UInt8.le_iff_toNat_le, value, Bool.and_eq_true, decide_eq_true_eq,
    UInt8.reduceToNat]
  omega

/-- Six bits behind the mark of a continuation can be read back. -/
theorem low6_ofNat (number : Nat) : low6 (.ofNat (number % 64 + 128)) = number % 64 := by
  rw [low6, UInt8.toNat_ofNat_of_lt' (show _ < 256 by omega)]
  omega

/-- A surrogate is told by its second byte. -/
theorem isSurrogate_ofNat {unit : Nat} (small : unit < 0x10000) :
    (isHighSurrogate (.ofNat (unit / 4096 + 224)) (.ofNat (unit / 64 % 64 + 128)) = true ↔
      0xD800 ≤ unit ∧ unit < 0xDC00) ∧
    (isLowSurrogate (.ofNat (unit / 4096 + 224)) (.ofNat (unit / 64 % 64 + 128)) = true ↔
      0xDC00 ≤ unit ∧ unit < 0xE000) := by
  have first := UInt8.toNat_ofNat_of_lt' (show unit / 4096 + 224 < 256 by omega)
  have second := UInt8.toNat_ofNat_of_lt' (show unit / 64 % 64 + 128 < 256 by omega)
  simp only [isHighSurrogate, isLowSurrogate, Bool.and_eq_true, beq_iff_eq, decide_eq_true_eq,
    UInt8.le_iff_toNat_le, ← UInt8.toNat_inj, first, second, UInt8.reduceToNat]
  omega

/-- Three bytes that are made of a unit of 16 bits have the marks of three. -/
theorem validThree_ofNat {unit : Nat} (large : 0x800 ≤ unit) (small : unit < 0x10000) :
    validThree (.ofNat (unit / 4096 + 224)) (.ofNat (unit / 64 % 64 + 128))
      (.ofNat (unit % 64 + 128)) = true := by
  have first := UInt8.toNat_ofNat_of_lt' (show unit / 4096 + 224 < 256 by omega)
  have second := UInt8.toNat_ofNat_of_lt' (show unit / 64 % 64 + 128 < 256 by omega)
  simp only [validThree, isContinuation_ofNat, Bool.true_and, Bool.or_eq_true, bne_iff_ne, ne_eq,
    decide_eq_true_eq, UInt8.le_iff_toNat_le, ← UInt8.toNat_inj, first, second, UInt8.reduceToNat]
  omega

/-- A unit that is no surrogate is read as the character that it is. -/
theorem decode_encodeUnit {unit : Nat} (large : 0x800 ≤ unit) (small : unit < 0x10000)
    (single : unit < 0xD800 ∨ 0xDFFF < unit) (rest : List UInt8) :
    decode (encodeUnit unit ++ rest) = (Char.ofNat unit :: ·) <$> decode rest := by
  have first := UInt8.toNat_ofNat_of_lt' (show unit / 4096 + 224 < 256 by omega)
  obtain ⟨isHigh, isLow⟩ := isSurrogate_ofNat small
  have letter : charThree (.ofNat (unit / 4096 + 224)) (.ofNat (unit / 64 % 64 + 128))
      (.ofNat (unit % 64 + 128)) = Char.ofNat unit := by
    rw [charThree, low6_ofNat, low6_ofNat, first]
    exact congrArg Char.ofNat (by omega)
  rw [← letter]
  refine decode_three rest (by omega) (by omega) (validThree_ofNat large small) ?_ ?_
  · rw [← Bool.not_eq_true, isHigh]
    omega
  · rw [← Bool.not_eq_true, isLow]
    omega

/-- Two bytes are read as the character that they are. -/
theorem decode_ofNat_two {number : Nat} (proper : number = 0 ∨ 0x80 ≤ number)
    (small : number < 0x800) (rest : List UInt8) :
    decode (.ofNat (number / 64 + 192) :: .ofNat (number % 64 + 128) :: rest) =
      (Char.ofNat number :: ·) <$> decode rest := by
  have first := UInt8.toNat_ofNat_of_lt' (show number / 64 + 192 < 256 by omega)
  have letter : charTwo (.ofNat (number / 64 + 192)) (.ofNat (number % 64 + 128)) =
      Char.ofNat number := by
    rw [charTwo, low6_ofNat, first]
    exact congrArg Char.ofNat (by omega)
  have valid : validTwo (.ofNat (number / 64 + 192)) (.ofNat (number % 64 + 128)) = true := by
    have second := UInt8.toNat_ofNat_of_lt' (show number % 64 + 128 < 256 by omega)
    simp only [validTwo, isContinuation_ofNat, Bool.true_and, Bool.or_eq_true, bne_iff_ne,
      beq_iff_eq, ne_eq, ← UInt8.toNat_inj, first, second, UInt8.reduceToNat]
    omega
  rw [← letter]
  exact decode_two rest (by omega) (by omega) valid

/-- Bits that do not overlap are joined by adding, except that the lowest bit of the plane is
set. -/
theorem join_bits {high upper middle lower : Nat} (few : high < 16) (upperFew : upper < 64)
    (middleFew : middle < 16) (lowerFew : lower < 64) :
    0x10000 ||| (high <<< 16) ||| (upper <<< 10) ||| (middle <<< 6) ||| lower =
      (high + (1 - high % 2)) * 65536 + upper * 1024 + middle * 64 + lower := by
  have lowest : ∀ plane < 16, 1 ||| plane = plane + (1 - plane % 2) := by decide
  have top : 0x10000 ||| (high <<< 16) = 2 ^ 16 * (high + (1 - high % 2)) := by
    rw [← lowest high few, Nat.mul_comm, ← Nat.shiftLeft_eq, Nat.shiftLeft_or_distrib]
    rfl
  rw [top, Nat.shiftLeft_eq, Nat.shiftLeft_eq, ← Nat.two_pow_add_eq_or_of_lt (by omega)]
  have second : 2 ^ 16 * (high + (1 - high % 2)) + upper * 2 ^ 10 =
      2 ^ 10 * (64 * (high + (1 - high % 2)) + upper) := by omega
  rw [second, ← Nat.two_pow_add_eq_or_of_lt (by omega)]
  have third : 2 ^ 10 * (64 * (high + (1 - high % 2)) + upper) + middle * 2 ^ 6 =
      2 ^ 6 * (16 * (64 * (high + (1 - high % 2)) + upper) + middle) := by omega
  rw [third, ← Nat.two_pow_add_eq_or_of_lt (by omega)]
  omega

/-- Two surrogates are read as one character, of an odd plane. -/
theorem decode_surrogates {number : Nat} (few : number < 0x100000) (rest : List UInt8) :
    decode (encodeUnit (0xD800 + number / 1024) ++ (encodeUnit (0xDC00 + number % 1024) ++ rest)) =
      (Char.ofNat ((number / 65536 + (1 - number / 65536 % 2)) * 65536 + number % 65536) :: ·) <$>
        decode rest := by
  have first := UInt8.toNat_ofNat_of_lt' (show (0xD800 + number / 1024) / 4096 + 224 < 256 by omega)
  have second :=
    UInt8.toNat_ofNat_of_lt' (show (0xD800 + number / 1024) / 64 % 64 + 128 < 256 by omega)
  have fifth :=
    UInt8.toNat_ofNat_of_lt' (show (0xDC00 + number % 1024) / 64 % 64 + 128 < 256 by omega)
  -- the bits of both surrogates are joined; the lowest bit of the plane is set instead of added
  have letter : charPair (.ofNat ((0xD800 + number / 1024) / 64 % 64 + 128))
      (.ofNat ((0xD800 + number / 1024) % 64 + 128))
      (.ofNat ((0xDC00 + number % 1024) / 64 % 64 + 128))
      (.ofNat ((0xDC00 + number % 1024) % 64 + 128)) =
        Char.ofNat ((number / 65536 + (1 - number / 65536 % 2)) * 65536 + number % 65536) := by
    rw [charPair, low6_ofNat, low6_ofNat, low4, low4, second, fifth,
      join_bits (Nat.mod_lt _ (by decide)) (Nat.mod_lt _ (by decide)) (Nat.mod_lt _ (by decide))
        (Nat.mod_lt _ (by decide))]
    exact congrArg Char.ofNat (by omega)
  rw [← letter]
  exact decode_pair rest (by omega) (by omega) (validThree_ofNat (by omega) (by omega))
    ((isSurrogate_ofNat (by omega)).1.2 (by omega)) ((isSurrogate_ofNat (by omega)).2.2 (by omega))
    (isContinuation_ofNat _)

/-- The character that two surrogates are read as. -/
theorem merge_surrogates {letter : Char} {number : Nat} (same : letter.toNat = number)
    (large : 0x10000 ≤ number) :
    merge letter =
      Char.ofNat (((number - 0x10000) / 65536 + (1 - (number - 0x10000) / 65536 % 2)) * 65536 +
        (number - 0x10000) % 65536) := by
  by_cases survives : Survives letter
  · have odd : plane letter % 2 = 1 := by
      simp only [Survives, plane, same] at survives ⊢
      omega
    rw [merge, if_pos survives, ← Char.ofNat_toNat letter, same]
    simp only [plane, same] at odd
    exact congrArg Char.ofNat (by omega)
  · rw [merge, if_neg survives, same]
    simp only [Survives, plane, same] at survives
    exact congrArg Char.ofNat (by omega)

/-- The bytes of a character are read as one character. -/
theorem decode_encodeChar (letter : Char) (rest : List UInt8) :
    decode (encodeChar letter ++ rest) = (merge letter :: ·) <$> decode rest := by
  obtain ⟨number, same⟩ : ∃ number, letter.toNat = number := ⟨_, rfl⟩
  have letterOf : Char.ofNat number = letter := by
    rw [← same]
    exact Char.ofNat_toNat letter
  have bound : number < 0x110000 := same ▸ toNat_lt letter
  have kept (inside : number < 0x10000) : merge letter = Char.ofNat number := by
    have survives : Survives letter := .inl (by rw [plane, same]; omega)
    rw [merge, if_pos survives, letterOf]
  -- by the number of bytes; only a pair of surrogates may be read as another character
  simp only [encodeChar, same]
  by_cases zero : number = 0
  · have written : [0xC0, 0x80] =
        [UInt8.ofNat (number / 64 + 192), UInt8.ofNat (number % 64 + 128)] := by
      rw [zero]
      rfl
    rw [if_pos zero, written, kept (by omega)]
    exact decode_ofNat_two (.inl zero) (by omega) rest
  rw [if_neg zero]
  by_cases one : number < 0x80
  · rw [if_pos one, kept (by omega)]
    have value := UInt8.toNat_ofNat_of_lt' (show number < 256 by omega)
    have read := decode_one rest (show 0 < (UInt8.ofNat number).toNat by omega) (by omega)
    rwa [value] at read
  rw [if_neg one]
  by_cases two : number < 0x800
  · rw [if_pos two, kept (by omega)]
    exact decode_ofNat_two (.inr (by omega)) two rest
  rw [if_neg two]
  by_cases three : number < 0x10000
  · have single : number < 0xD800 ∨ 0xDFFF < number := by
      rw [← same]
      exact letter.valid.imp id And.left
    rw [if_pos three, kept three]
    exact decode_encodeUnit (by omega) three single rest
  · rw [if_neg three, List.append_assoc, decode_surrogates (by omega),
      merge_surrogates same (by omega)]

/-! ## Texts -/

/-- The bytes of a text are well formed, and are read as a text. -/
theorem decodeString_encode (text : String) :
    decodeString (encode text) = some (mergeText text) := by
  have letters (text : List Char) : decode (text.flatMap encodeChar) = some (text.map merge) := by
    induction text with
    | nil => rw [List.flatMap_nil, decode, List.map_nil]
    | cons letter text induction =>
      rw [List.flatMap_cons, decode_encodeChar, induction]
      rfl
  rw [decodeString, encode, letters]
  rfl

/-- Exactly the characters that survive are merged to themselves. -/
theorem merge_eq_iff {letter : Char} : merge letter = letter ↔ Survives letter := by
  constructor
  · intro same
    by_contra lost
    have moved := toNat_merge lost
    rw [same] at moved
    omega
  · intro survives
    rw [merge, if_pos survives]

/-- A text is read as itself if all its characters survive. -/
theorem mergeText_eq_iff {text : String} :
    mergeText text = text ↔ ∀ letter ∈ text.toList, Survives letter := by
  have letters : text.toList.map merge = text.toList.map id ↔
      ∀ letter ∈ text.toList, merge letter = letter := List.map_inj_left
  rw [mergeText, ← String.toList_inj, String.toList_ofList]
  simpa only [List.map_id, merge_eq_iff] using letters

/-! ## Lengths

What is read for some bytes may be written differently: a surrogate without its partner becomes the
replacement character, and a character may have been written with two bytes where one is enough. It
never takes more bytes than were read (`length_encode_le`). -/

/-- A character takes one to three bytes, or six if it is a pair, and two if it is zero. -/
theorem length_encodeChar (letter : Char) :
    (encodeChar letter).length =
      if letter.toNat = 0 then 2
      else if letter.toNat < 0x80 then 1
      else if letter.toNat < 0x800 then 2
      else if letter.toNat < 0x10000 then 3
      else 6 := by
  simp only [encodeChar, apply_ite List.length]
  rfl

/-- A number that no character has becomes that of the zero character. -/
theorem toNat_charOfNat_le (number : Nat) : (Char.ofNat number).toNat ≤ number := by
  by_cases valid : number.isValidChar
  · exact Nat.le_of_eq (toNat_charOfNat valid)
  · rw [Char.ofNat, dif_neg valid]
    exact Nat.zero_le number

/-- The low bits of a byte are six. -/
theorem low6_lt (byte : UInt8) : low6 byte < 64 := Nat.mod_lt _ (by decide)

/-- The character of two bytes is not written with more. -/
theorem length_encodeChar_charTwo (first second : UInt8) :
    (encodeChar (charTwo first second)).length ≤ 2 := by
  have small : (charTwo first second).toNat < 0x800 := by
    have bound := toNat_charOfNat_le (first.toNat % 32 * 64 + low6 second)
    have := low6_lt second
    unfold charTwo
    omega
  rw [length_encodeChar]
  split_ifs <;> omega

/-- The character of three bytes is not written with more. -/
theorem length_encodeChar_charThree (first second third : UInt8) :
    (encodeChar (charThree first second third)).length ≤ 3 := by
  have small : (charThree first second third).toNat < 0x10000 := by
    have bound := toNat_charOfNat_le (first.toNat % 16 * 4096 + low6 second * 64 + low6 third)
    have := low6_lt second
    have := low6_lt third
    unfold charThree
    omega
  rw [length_encodeChar]
  split_ifs <;> omega

section

variable {bytes rest : List UInt8} {letter : Char} {letters : List Char} {width : Nat}

/-- One more character adds its own bytes. -/
theorem length_flatMap_of_cons (read : (letter :: ·) <$> decode rest = some letters)
    (short : (encodeChar letter).length ≤ width)
    (others : ∀ {letters}, decode rest = some letters →
      (letters.flatMap encodeChar).length ≤ rest.length) :
    (letters.flatMap encodeChar).length ≤ rest.length + width := by
  obtain ⟨tail, readTail, rfl⟩ := Option.map_eq_some_iff.1 read
  have := others readTail
  rw [List.flatMap_cons, List.length_append]
  omega

/-- Characters are written with no more bytes than they were read from. -/
theorem length_flatMap_of_decode (read : decode bytes = some letters) :
    (letters.flatMap encodeChar).length ≤ bytes.length := by
  fun_induction decode bytes generalizing letters with
  | case1 =>
    cases read
    exact Nat.le_refl _
  | case3 first rest some small induction =>
    have one : (encodeChar (Char.ofNat first.toNat)).length ≤ 1 := by
      have positive : first.toNat ≠ 0 := fun zero => some (UInt8.toNat_inj.1 zero)
      have bound : first.toNat ≤ 0x7F := UInt8.le_iff_toNat_le.1 small
      rw [length_encodeChar, toNat_charOfNat (.inl (by omega))]
      split_ifs <;> omega
    exact (length_flatMap_of_cons read one induction :)
  | case5 =>
    next induction =>
    exact (length_flatMap_of_cons read (length_encodeChar_charTwo _ _) induction :)
  | case8 =>
    have six (letter : Char) : (encodeChar letter).length ≤ 6 := by
      rw [length_encodeChar]
      split_ifs <;> omega
    next induction =>
    exact (length_flatMap_of_cons read (six _) induction :)
  | case9 | case10 | case11 =>
    -- the replacement character takes as many bytes as the surrogate that it stands for
    have three : (encodeChar replacement).length ≤ 3 := by decide
    next induction =>
    exact (length_flatMap_of_cons read three induction :)
  | case12 =>
    next induction =>
    exact (length_flatMap_of_cons read (length_encodeChar_charThree _ _ _) induction :)
  | _ => cases read

end

/-- A text can be written with no more bytes than it was read from. -/
theorem length_encode_le {bytes : List UInt8} {text : String}
    (read : decodeString bytes = some text) :
    (encode text).length ≤ bytes.length := by
  obtain ⟨letters, decoded, rfl⟩ := Option.map_eq_some_iff.1 read
  rw [encode, String.toList_ofList]
  exact length_flatMap_of_decode decoded

end ClassLowering.ModifiedUtf8
