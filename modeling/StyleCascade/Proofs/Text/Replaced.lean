import Mathlib.Algebra.Group.Nat.Defs
import StyleCascade.Proofs.Text.Utf8

namespace StyleCascade

namespace Utf8

section

variable {v : Nat}

theorem isContinuation_ascii (ascii : v < 0x80) : isContinuation (UInt8.ofNat v) = false := by
  have size := UInt8.toNat_ofNat_of_lt' (show v < 256 by omega)
  simp only [isContinuation, UInt8.le_iff_toNat_le, size, UInt8.reduceToNat, Bool.and_eq_false_iff,
    decide_eq_false_iff_not]
  omega

theorem isContinuation_of_mayFollow {lead second : UInt8}
    (follows : mayFollow lead second = true) : isContinuation second = true := by
  simp only [mayFollow, isContinuation, UInt8.le_iff_toNat_le, UInt8.reduceToNat] at follows ⊢
  split at follows
  · simp only [Bool.and_eq_true, decide_eq_true_eq] at follows ⊢; omega
  split at follows
  · simp only [Bool.and_eq_true, decide_eq_true_eq] at follows ⊢; omega
  split at follows
  · simp only [Bool.and_eq_true, decide_eq_true_eq] at follows ⊢; omega
  split at follows
  · simp only [Bool.and_eq_true, decide_eq_true_eq] at follows ⊢; omega
  · exact follows

theorem takeWhile_take_append {p : UInt8 → Bool} {b : UInt8} (stops : p b = false) (count : Nat)
    (front behind : List UInt8) :
    ((front ++ b :: behind).take count).takeWhile p = (front.take count).takeWhile p := by
  induction front generalizing count with
  | nil =>
    cases count with
    | zero => rfl
    | succ => rw [List.nil_append, List.take_succ_cons, List.takeWhile_cons, stops]; rfl
  | cons a front ih =>
    cases count with
    | zero => rfl
    | succ count =>
      rw [List.cons_append, List.take_succ_cons, List.take_succ_cons, List.takeWhile_cons,
        List.takeWhile_cons, ih]

/-- No character goes on with an ASCII byte. -/
theorem trail_append_ascii (ascii : v < 0x80) (lead : UInt8) (rest behind : List UInt8) :
    trail lead (rest ++ UInt8.ofNat v :: behind) = trail lead rest := by
  have stops := isContinuation_ascii ascii
  have noSecond : mayFollow lead (UInt8.ofNat v) = false := by
    refine Bool.eq_false_iff.mpr (fun follows => ?_)
    rw [isContinuation_of_mayFollow follows] at stops
    cases stops
  unfold trail
  cases width lead - 1 with
  | zero => rw [List.take_zero, List.take_zero]
  | succ count =>
    cases rest with
    | nil => simp only [List.nil_append, List.take_succ_cons, noSecond, List.take_nil]; rfl
    | cons second rest =>
      simp only [List.cons_append, List.take_succ_cons, takeWhile_take_append stops]

theorem length_trail_le (lead : UInt8) (rest : List UInt8) :
    (trail lead rest).length ≤ rest.length := by
  unfold trail
  split
  · simp
  · next second more taken =>
    have size : (second :: more).length ≤ rest.length := by
      rw [← taken, List.length_take]; omega
    split
    · have := (List.takeWhile_prefix (l := more) isContinuation).length_le
      simp only [List.length_cons] at size ⊢; omega
    · simp

/-- An ASCII byte is read as its character, and parts what is in front of it from what is behind. -/
theorem decode_append_byte {c : Char} (ascii : c.toNat < 0x80) (front behind : List UInt8) :
    decode (front ++ Ascii.byte c :: behind) = decode front ++ c :: decode behind := by
  fun_induction decode front with
  | case1 =>
    have one := decode_one ascii behind
    rwa [Char.ofNat_toNat] at one
  | case2 lead rest continuation read ih =>
    have inside : continuation.length ≤ rest.length := length_trail_le lead rest
    rw [List.cons_append, decode, Ascii.byte, trail_append_ascii ascii,
      List.drop_append_of_le_length inside, ← Ascii.byte, ih]
    rfl

/-- The bytes that continue a character, if they are as many as it asks for. -/
theorem mayFollow_of_trail {lead : UInt8} {rest : List UInt8} (wide : 2 ≤ width lead)
    (whole : (trail lead rest).length + 1 = width lead) :
    ∃ second more, trail lead rest = second :: more ∧ mayFollow lead second = true ∧
      more.length + 2 = width lead := by
  unfold trail at whole ⊢
  split
  · next none => rw [none] at whole; simp only [List.length_nil] at whole; omega
  · next second more taken =>
    simp only [taken] at whole ⊢
    split at whole
    · next follows =>
      rw [if_pos follows]
      exact ⟨_, _, rfl, follows, by simpa using whole⟩
    · simp only [List.length_nil] at whole; omega

theorem leadBits_of_width {lead second : UInt8} (wide : 2 ≤ width lead)
    (follows : mayFollow lead second = true) :
    128 ≤ 64 ^ (width lead - 2) * (64 * leadBits lead + second.toNat % 64) := by
  have small := lead.toNat_lt
  have inside := isContinuation_of_mayFollow follows
  simp only [isContinuation, UInt8.le_iff_toNat_le, UInt8.reduceToNat, Bool.and_eq_true,
    decide_eq_true_eq] at inside
  have self : lead = UInt8.ofNat lead.toNat := UInt8.ofNat_toNat.symm
  have count := width_ofNat (show lead.toNat < 256 by omega)
  rw [← self] at count
  have long : lead.toNat = 0xE0 → 0xA0 ≤ second.toNat := by
    intro same
    obtain rfl : lead = 0xE0 := UInt8.toNat_inj.mp same
    simp only [mayFollow, UInt8.le_iff_toNat_le, UInt8.reduceToNat, if_true, Bool.and_eq_true,
      decide_eq_true_eq] at follows
    exact follows.1
  have longer : lead.toNat = 0xF0 → 0x90 ≤ second.toNat := by
    intro same
    obtain rfl : lead = 0xF0 := UInt8.toNat_inj.mp same
    have apart : ¬((0xF0 : UInt8) = 0xE0) ∧ ¬((0xF0 : UInt8) = 0xED) := by decide
    simp only [mayFollow, apart, if_false, if_true, UInt8.le_iff_toNat_le, UInt8.reduceToNat,
      Bool.and_eq_true, decide_eq_true_eq] at follows
    exact follows.1
  unfold leadBits
  split at count
  · omega
  split at count
  · rw [count]; simp only; omega
  split at count
  · rw [count]; simp only; omega
  split at count
  · rw [count]; simp only; omega
  · omega

theorem pow_mul_le_foldl (more : List UInt8) (bits : Nat) :
    64 ^ more.length * bits ≤ more.foldl (fun bits b => 64 * bits + b.toNat % 64) bits := by
  induction more generalizing bits with
  | nil => simp
  | cons b more ih =>
    refine Nat.le_trans ?_ (ih (64 * bits + b.toNat % 64))
    rw [List.length_cons, Nat.pow_succ, Nat.mul_assoc]
    exact Nat.mul_le_mul_left _ (Nat.le_add_right _ _)

/-- What is read from several bytes is no ASCII character, save that of no code point. -/
theorem character_ne_of_wide {lead : UInt8} {rest : List UInt8} {c : Char}
    (wide : 2 ≤ width lead) (whole : (trail lead rest).length + 1 = width lead)
    (some : 0 < c.toNat) (ascii : c.toNat < 0x80) : character lead (trail lead rest) ≠ c := by
  obtain ⟨second, more, shape, follows, size⟩ := mayFollow_of_trail wide whole
  have start := leadBits_of_width wide follows
  have value := pow_mul_le_foldl more (64 * leadBits lead + second.toNat % 64)
  rw [← size, Nat.add_sub_cancel] at start
  rw [shape, character, List.foldl_cons]
  generalize more.foldl (fun bits b => 64 * bits + b.toNat % 64) _ = number at value
  rintro rfl
  by_cases valid : number.isValidChar
  · have point : (Char.ofNat number).toNat = number := congrArg Char.toNat (dif_pos valid)
    omega
  · have none : Char.ofNat number = Char.ofNat 0 := dif_neg valid
    rw [none] at some
    cases some

theorem lt_of_width_one {lead : UInt8} (single : width lead = 1) : lead.toNat < 0x80 := by
  have small := lead.toNat_lt
  have count := width_ofNat (show lead.toNat < 256 by omega)
  rw [UInt8.ofNat_toNat, single] at count
  split at count
  · assumption
  split at count
  · cases count
  split at count
  · cases count
  split at count <;> cases count

theorem byte_character_of_width {lead : UInt8} (single : width lead = 1) :
    Ascii.byte (character lead []) = lead := by
  have ascii := lt_of_width_one single
  have bits : leadBits lead = lead.toNat := by
    rw [leadBits, single]
    rfl
  have point : (Char.ofNat lead.toNat).toNat = lead.toNat :=
    congrArg Char.toNat (dif_pos (Or.inl (by omega)))
  rw [character, List.foldl_nil, bits, Ascii.byte, point, UInt8.ofNat_toNat]

/-- An ASCII character is read of its byte alone. -/
theorem eq_byte_of_read {lead : UInt8} {rest : List UInt8} {c : Char}
    (read : (if (trail lead rest).length + 1 = width lead then character lead (trail lead rest)
      else '\uFFFD') = c)
    (some : 0 < c.toNat) (ascii : c.toNat < 0x80) : trail lead rest = [] ∧ lead = Ascii.byte c := by
  split at read
  · next whole =>
    have single : width lead = 1 := by
      refine Nat.le_antisymm (Nat.le_of_not_lt fun wide => ?_) (by omega)
      exact character_ne_of_wide wide whole some ascii read
    have none : trail lead rest = [] := List.eq_nil_of_length_eq_zero (by omega)
    rw [none] at read
    exact ⟨none, by rw [← read, byte_character_of_width single]⟩
  · rw [← read] at ascii
    exact absurd ascii (by decide)

/-- An ASCII character at the front of a text is the byte at the front. -/
theorem eq_cons_of_decode {bytes : List UInt8} {c : Char} {rest : List Char}
    (read : decode bytes = c :: rest) (some : 0 < c.toNat) (ascii : c.toNat < 0x80) :
    ∃ more, bytes = Ascii.byte c :: more ∧ decode more = rest := by
  cases bytes with
  | nil => rw [decode] at read; cases read
  | cons lead bytes =>
    rw [decode, List.cons.injEq] at read
    obtain ⟨none, same⟩ := eq_byte_of_read read.1 some ascii
    rw [none, List.length_nil, List.drop_zero] at read
    exact ⟨bytes, by rw [same], read.2⟩

/-- An ASCII character at the end of a text is the byte at the end. -/
theorem eq_append_of_getLast?_decode {bytes : List UInt8} {c : Char}
    (last : (decode bytes).getLast? = some c) (some : 0 < c.toNat) (ascii : c.toNat < 0x80) :
    ∃ front, bytes = front ++ [Ascii.byte c] := by
  fun_induction decode bytes with
  | case1 => cases last
  | case2 lead rest continuation read ih =>
    have split : lead :: rest = lead :: rest.take continuation.length ++
        rest.drop continuation.length := by rw [List.cons_append, List.take_append_drop]
    cases more : rest.drop continuation.length with
    | cons =>
      -- the last character is read from what is left behind the first
      have filled : decode (rest.drop continuation.length) ≠ [] := by
        rw [more, decode]
        exact List.cons_ne_nil _ _
      rw [List.getLast?_cons_of_ne_nil filled] at last
      obtain ⟨front, shape⟩ := ih last
      exact ⟨lead :: rest.take continuation.length ++ front,
        by rw [split, shape, List.append_assoc]⟩
    | nil =>
      rw [more, decode, List.getLast?_singleton, Option.some.injEq] at last
      obtain ⟨none, same⟩ := eq_byte_of_read last some ascii
      have nothing : rest = [] := by
        rwa [show continuation = [] from none, List.length_nil, List.drop_zero] at more
      exact ⟨[], by rw [nothing, same, List.nil_append]⟩

end

end Utf8

end StyleCascade
