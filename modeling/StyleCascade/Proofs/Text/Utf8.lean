import StyleCascade.Text.Ascii
import StyleCascade.Text.Utf8

namespace StyleCascade

namespace Utf8

/-- The bytes of a text are what it is stored as. -/
theorem encode_eq (text : String) : encode text = text.toByteArray.data.toList := by
  rw [← String.utf8Encode_toList, List.utf8Encode, List.toList_data_toByteArray, encode]

theorem encode_append (one other : String) :
    encode (one ++ other) = encode one ++ encode other := by
  rw [encode, String.toList_append, List.flatMap_append]
  rfl

section

variable {lead second : Nat}

/-- The five ranges of the lead byte; the bytes between them begin nothing. -/
theorem width_ofNat (small : lead < 256) :
    width (UInt8.ofNat lead) =
      if lead < 0x80 then 1
      else if 0xC2 ≤ lead ∧ lead ≤ 0xDF then 2
      else if 0xE0 ≤ lead ∧ lead ≤ 0xEF then 3
      else if 0xF0 ≤ lead ∧ lead ≤ 0xF4 then 4
      else 0 := by
  have size := UInt8.toNat_ofNat_of_lt' small
  simp [width, UInt8.lt_iff_toNat_lt, UInt8.le_iff_toNat_le, size]

/-- The four lead bytes that narrow the range of the byte behind them, against overlong forms,
surrogates and code points past the last. -/
theorem mayFollow_ofNat (small : lead < 256) (inside : 0x80 ≤ second ∧ second ≤ 0xBF)
    (long : lead = 0xE0 → 0xA0 ≤ second) (noSurrogate : lead = 0xED → second ≤ 0x9F)
    (longer : lead = 0xF0 → 0x90 ≤ second) (last : lead = 0xF4 → second ≤ 0x8F) :
    mayFollow (UInt8.ofNat lead) (UInt8.ofNat second) = true := by
  have size := UInt8.toNat_ofNat_of_lt' small
  have place := UInt8.toNat_ofNat_of_lt' (show second < 256 by omega)
  simp only [mayFollow, isContinuation, ← UInt8.toNat_inj, UInt8.le_iff_toNat_le, size, place,
    UInt8.reduceToNat]
  split
  · simp; omega
  split
  · simp; omega
  split
  · simp; omega
  split <;> simp <;> omega

end

theorem isContinuation_ofNat (bits : Nat) :
    isContinuation (UInt8.ofNat (bits % 64 + 128)) = true := by
  have size := UInt8.toNat_ofNat_of_lt' (show bits % 64 + 128 < 256 by omega)
  simp only [isContinuation, UInt8.le_iff_toNat_le, size, UInt8.reduceToNat, Bool.and_eq_true,
    decide_eq_true_eq]
  omega

/-- A first byte with as many bytes behind it as it asks for is one character. -/
theorem decode_of_width {lead second : UInt8} {more : List UInt8}
    (wide : width lead = more.length + 2) (follows : mayFollow lead second = true)
    (continues : ∀ b ∈ more, isContinuation b = true) (behind : List UInt8) :
    decode (lead :: second :: more ++ behind) =
      character lead (second :: more) :: decode behind := by
  have taken : trail lead (second :: more ++ behind) = second :: more := by
    have front : (second :: more ++ behind).take (width lead - 1) = second :: more := by
      rw [wide]
      exact List.take_left' rfl
    have run : more.takeWhile isContinuation = more := by
      have whole : (more ++ []).takeWhile isContinuation = more ++ [].takeWhile isContinuation :=
        List.takeWhile_append_of_pos continues
      rwa [List.takeWhile_nil, List.append_nil] at whole
    rw [trail, front]
    simp only [follows, if_true, run]
  have whole : (second :: more).length + 1 = width lead := wide.symm
  rw [List.cons_append, decode, taken, if_pos whole, List.drop_left' rfl]

section

variable {v : Nat}

theorem decode_one (high : v < 0x80) (behind : List UInt8) :
    decode (UInt8.ofNat v :: behind) = Char.ofNat v :: decode behind := by
  have wide : width (UInt8.ofNat v) = 1 := by
    rw [width_ofNat (by omega), if_pos high]
  have none : trail (UInt8.ofNat v) behind = [] := by
    rw [trail, wide]
    rfl
  have bits : character (UInt8.ofNat v) [] = Char.ofNat v := by
    rw [character, leadBits, wide]
    exact congrArg Char.ofNat (UInt8.toNat_ofNat_of_lt' (show v < 256 by omega))
  have whole : ([] : List UInt8).length + 1 = width (UInt8.ofNat v) := wide.symm
  rw [decode, none, if_pos whole, bits]
  rfl

theorem decode_two (low : 0x80 ≤ v) (high : v < 0x800) (behind : List UInt8) :
    decode ([UInt8.ofNat (v / 64 % 32 + 192), UInt8.ofNat (v % 64 + 128)] ++ behind) =
      Char.ofNat v :: decode behind := by
  have wide : width (UInt8.ofNat (v / 64 % 32 + 192)) = 2 := by
    rw [width_ofNat (by omega), if_neg (by omega), if_pos (by omega)]
  have follows : mayFollow (UInt8.ofNat (v / 64 % 32 + 192)) (UInt8.ofNat (v % 64 + 128)) = true :=
    mayFollow_ofNat (by omega) (by omega) (by omega) (by omega) (by omega) (by omega)
  have bits : character (UInt8.ofNat (v / 64 % 32 + 192)) [UInt8.ofNat (v % 64 + 128)] =
      Char.ofNat v := by
    rw [character, leadBits, wide]
    simp only [List.foldl_cons, List.foldl_nil, UInt8.toNat_ofNat']
    exact congrArg Char.ofNat (by omega)
  exact (decode_of_width wide follows (fun _ mem => by cases mem) behind).trans (by rw [bits])

/-- Three bytes, for the code points that are no surrogates. -/
theorem decode_three (low : 0x800 ≤ v) (high : v < 0x10000) (valid : v < 0xD800 ∨ 0xDFFF < v)
    (behind : List UInt8) :
    decode ([UInt8.ofNat (v / 4096 % 16 + 224), UInt8.ofNat (v / 64 % 64 + 128),
      UInt8.ofNat (v % 64 + 128)] ++ behind) = Char.ofNat v :: decode behind := by
  have wide : width (UInt8.ofNat (v / 4096 % 16 + 224)) = 3 := by
    rw [width_ofNat (by omega), if_neg (by omega), if_neg (by omega), if_pos (by omega)]
  have follows : mayFollow (UInt8.ofNat (v / 4096 % 16 + 224))
      (UInt8.ofNat (v / 64 % 64 + 128)) = true :=
    mayFollow_ofNat (by omega) (by omega) (by omega) (by omega) (by omega) (by omega)
  have bits : character (UInt8.ofNat (v / 4096 % 16 + 224))
      [UInt8.ofNat (v / 64 % 64 + 128), UInt8.ofNat (v % 64 + 128)] = Char.ofNat v := by
    rw [character, leadBits, wide]
    simp only [List.foldl_cons, List.foldl_nil, UInt8.toNat_ofNat']
    exact congrArg Char.ofNat (by omega)
  have continues : ∀ b ∈ [UInt8.ofNat (v % 64 + 128)], isContinuation b = true :=
    fun b mem => List.mem_singleton.mp mem ▸ isContinuation_ofNat v
  exact (decode_of_width wide follows continues behind).trans (by rw [bits])

/-- Four bytes, up to the last code point. -/
theorem decode_four (low : 0x10000 ≤ v) (high : v < 0x110000) (behind : List UInt8) :
    decode ([UInt8.ofNat (v / 262144 % 8 + 240), UInt8.ofNat (v / 4096 % 64 + 128),
      UInt8.ofNat (v / 64 % 64 + 128), UInt8.ofNat (v % 64 + 128)] ++ behind) =
        Char.ofNat v :: decode behind := by
  have wide : width (UInt8.ofNat (v / 262144 % 8 + 240)) = 4 := by
    rw [width_ofNat (by omega), if_neg (by omega), if_neg (by omega), if_neg (by omega),
      if_pos (by omega)]
  have follows : mayFollow (UInt8.ofNat (v / 262144 % 8 + 240))
      (UInt8.ofNat (v / 4096 % 64 + 128)) = true :=
    mayFollow_ofNat (by omega) (by omega) (by omega) (by omega) (by omega) (by omega)
  have bits : character (UInt8.ofNat (v / 262144 % 8 + 240)) [UInt8.ofNat (v / 4096 % 64 + 128),
      UInt8.ofNat (v / 64 % 64 + 128), UInt8.ofNat (v % 64 + 128)] = Char.ofNat v := by
    rw [character, leadBits, wide]
    simp only [List.foldl_cons, List.foldl_nil, UInt8.toNat_ofNat']
    exact congrArg Char.ofNat (by omega)
  have continues : ∀ b ∈ [UInt8.ofNat (v / 64 % 64 + 128), UInt8.ofNat (v % 64 + 128)],
      isContinuation b = true := by
    intro b mem
    simp only [List.mem_cons, List.not_mem_nil, or_false] at mem
    obtain rfl | rfl := mem <;> exact isContinuation_ofNat _
  exact (decode_of_width wide follows continues behind).trans (by rw [bits])

end

/-- The bytes of a character are read as that character. -/
theorem decode_encodeChar (c : Char) (behind : List UInt8) :
    decode (String.utf8EncodeChar c ++ behind) = c :: decode behind := by
  let v := c.val.toNat
  have valid : v < 0xD800 ∨ 0xDFFF < v ∧ v < 0x110000 := c.valid
  have self : Char.ofNat v = c := Char.ofNat_toNat c
  have read : decode (String.utf8EncodeChar c ++ behind) = Char.ofNat v :: decode behind := by
    rw [String.utf8EncodeChar]
    split
    · exact decode_one (by omega) behind
    split
    · exact decode_two (by omega) (by omega) behind
    split
    · exact decode_three (by omega) (by omega) (by omega) behind
    · exact decode_four (by omega) (by omega) behind
  rw [read, self]

theorem decode_encodeChars (chars : List Char) :
    decode (chars.flatMap String.utf8EncodeChar) = chars := by
  induction chars with
  | nil => rw [List.flatMap_nil, decode]
  | cons c rest ih => rw [List.flatMap_cons, decode_encodeChar, ih]

/-- An encoded text is read back. -/
theorem text_encode (text : String) : Utf8.text (encode text) = text := by
  rw [Utf8.text, encode, decode_encodeChars, String.ofList_toList]

/-- An ASCII byte stands for itself alone. -/
theorem toNat_of_mem_encodeChar {c : Char} {b : UInt8} (ascii : b.toNat < 0x80)
    (mem : b ∈ String.utf8EncodeChar c) : c.toNat = b.toNat := by
  have high {n : Nat} (small : n < 256) (large : 0x80 ≤ n) : b ≠ UInt8.ofNat n := by
    rintro rfl
    rw [UInt8.toNat_ofNat_of_lt' small] at ascii
    omega
  rw [String.utf8EncodeChar] at mem
  split at mem
  · next one =>
    have small : c.val.toNat < 256 := Nat.lt_of_le_of_lt one (by decide)
    rw [List.mem_singleton.mp mem, UInt8.toNat_ofNat_of_lt' small]
    rfl
  · exfalso
    split at mem
    · simp only [List.mem_cons, List.not_mem_nil, or_false] at mem
      obtain same | same := mem <;> exact high (by omega) (by omega) same
    split at mem
    · simp only [List.mem_cons, List.not_mem_nil, or_false] at mem
      obtain same | same | same := mem <;> exact high (by omega) (by omega) same
    · simp only [List.mem_cons, List.not_mem_nil, or_false] at mem
      obtain same | same | same | same := mem <;> exact high (by omega) (by omega) same

section

variable {mark : Char}

theorem toNat_byte (ascii : mark.toNat < 0x80) : (Ascii.byte mark).toNat = mark.toNat :=
  UInt8.toNat_ofNat_of_lt' (show mark.toNat < 256 by omega)

theorem byte_not_mem_encodeChar {c : Char} (ascii : mark.toNat < 0x80) (other : c ≠ mark) :
    Ascii.byte mark ∉ String.utf8EncodeChar c := by
  intro mem
  have size := toNat_byte ascii
  have same := toNat_of_mem_encodeChar (by omega) mem
  rw [size, Char.toNat_inj] at same
  exact other same

theorem byte_not_mem_encode {text : String} (ascii : mark.toNat < 0x80)
    (without : mark ∉ text.toList) : Ascii.byte mark ∉ encode text := by
  intro mem
  obtain ⟨c, listed, written⟩ := List.mem_flatMap.mp mem
  exact byte_not_mem_encodeChar ascii (fun same => without (same ▸ listed)) written

end

end Utf8

end StyleCascade
