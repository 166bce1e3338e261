import ClassMigration.Text.Utf8

/-! Texts beside their bytes. A text that bytes decode to is encoded by just these bytes, and a part of a text
is encoded by the bytes at its place. -/
namespace ClassMigration.Utf8

variable {text : Text} {bytes : Bytes} {a b c d : UInt8} {code : Nat}

theorem prepend_eq_some {least : Nat} {rest : Option Text} (made : prepend least code rest = some text) :
    least ≤ code ∧ code.isValidChar ∧ ∃ more, rest = some more ∧ text = .char (Char.ofNat code) :: more := by
  rw [prepend] at made
  split at made
  case isTrue fits =>
    obtain ⟨more, read, rfl⟩ := Option.map_eq_some_iff.mp made
    rw [Bool.and_eq_true, decide_eq_true_eq, decide_eq_true_eq] at fits
    exact ⟨fits.1, fits.2, more, read, rfl⟩
  case isFalse => cases made

theorem toNat_ofNat (valid : code.isValidChar) : (Char.ofNat code).val.toNat = code := by
  rw [Char.ofNat, dif_pos valid]
  rfl

theorem ofNat_eq_of_toNat {n : Nat} (same : b.toNat = n) : UInt8.ofNat n = b := by
  rw [← same, UInt8.ofNat_toNat]

theorem tail_bits (tail : isTail b = true) : b.toNat = tailBits b + 0x80 ∧ tailBits b < 0x40 := by
  rw [isTail, Bool.and_eq_true, decide_eq_true_eq, decide_eq_true_eq, UInt8.le_iff_toNat_le,
    UInt8.lt_iff_toNat_lt] at tail
  have high : 0x80 ≤ b.toNat := tail.1
  have low : b.toNat < 0xC0 := tail.2
  unfold tailBits
  omega

section Forms

variable (valid : code.isValidChar)
include valid

theorem encodeChar_one (short : code < 0x80) (first : a.toNat = code) :
    String.utf8EncodeChar (Char.ofNat code) = [a] := by
  have own : UInt8.ofNat code = a := ofNat_eq_of_toNat first
  simp only [String.utf8EncodeChar, toNat_ofNat valid]
  rw [if_pos (by omega), own]

theorem encodeChar_two (least : 0x80 ≤ code) (high : 0xC0 ≤ a.toNat) (low : a.toNat < 0xE0)
    (tail : isTail b = true) (same : code = (a.toNat - 0xC0) * 64 + tailBits b) :
    String.utf8EncodeChar (Char.ofNat code) = [a, b] := by
  have := tail_bits tail
  have first : UInt8.ofNat (code / 64 % 32 + 192) = a := ofNat_eq_of_toNat (by omega)
  have second : UInt8.ofNat (code % 64 + 128) = b := ofNat_eq_of_toNat (by omega)
  simp only [String.utf8EncodeChar, toNat_ofNat valid]
  rw [if_neg (by omega), if_pos (by omega), first, second]

theorem encodeChar_three (least : 0x800 ≤ code) (high : 0xE0 ≤ a.toNat) (low : a.toNat < 0xF0)
    (tail : isTail b = true) (tail' : isTail c = true)
    (same : code = ((a.toNat - 0xE0) * 64 + tailBits b) * 64 + tailBits c) :
    String.utf8EncodeChar (Char.ofNat code) = [a, b, c] := by
  have := tail_bits tail
  have := tail_bits tail'
  have first : UInt8.ofNat (code / 4096 % 16 + 224) = a := ofNat_eq_of_toNat (by omega)
  have second : UInt8.ofNat (code / 64 % 64 + 128) = b := ofNat_eq_of_toNat (by omega)
  have third : UInt8.ofNat (code % 64 + 128) = c := ofNat_eq_of_toNat (by omega)
  simp only [String.utf8EncodeChar, toNat_ofNat valid]
  rw [if_neg (by omega), if_neg (by omega), if_pos (by omega), first, second, third]

theorem encodeChar_four (least : 0x10000 ≤ code) (high : 0xF0 ≤ a.toNat)
    (tail : isTail b = true) (tail' : isTail c = true) (tail'' : isTail d = true)
    (same : code = (((a.toNat - 0xF0) * 64 + tailBits b) * 64 + tailBits c) * 64 + tailBits d) :
    String.utf8EncodeChar (Char.ofNat code) = [a, b, c, d] := by
  have := tail_bits tail
  have := tail_bits tail'
  have := tail_bits tail''
  have bound : code < 0x110000 := by
    rcases valid with low | ⟨-, low⟩ <;> omega
  have first : UInt8.ofNat (code / 262144 % 8 + 240) = a := ofNat_eq_of_toNat (by omega)
  have second : UInt8.ofNat (code / 4096 % 64 + 128) = b := ofNat_eq_of_toNat (by omega)
  have third : UInt8.ofNat (code / 64 % 64 + 128) = c := ofNat_eq_of_toNat (by omega)
  have fourth : UInt8.ofNat (code % 64 + 128) = d := ofNat_eq_of_toNat (by omega)
  simp only [String.utf8EncodeChar, toNat_ofNat valid]
  rw [if_neg (by omega), if_neg (by omega), if_neg (by omega), first, second, third, fourth]

end Forms

theorem encode_of_decode? (read : decode? bytes = some text) : encode text = bytes := by
  fun_induction decode? bytes generalizing text with
  | case1 =>
    cases read
    rfl
  | case2 a rest one ih =>
    obtain ⟨-, valid, more, others, rfl⟩ := prepend_eq_some read
    rw [encode_cons, bytes_char, ih others, encodeChar_one valid (UInt8.lt_iff_toNat_lt.mp one) rfl]
    rfl
  | case4 a notOne notTail two b rest tail ih =>
    obtain ⟨least, valid, more, others, rfl⟩ := prepend_eq_some read
    rw [UInt8.lt_iff_toNat_lt] at notTail two
    rw [encode_cons, bytes_char, ih others, encodeChar_two valid least (Nat.le_of_not_lt notTail) two tail rfl]
    rfl
  | case7 a notOne notTail notTwo three b c rest tails ih =>
    obtain ⟨least, valid, more, others, rfl⟩ := prepend_eq_some read
    rw [UInt8.lt_iff_toNat_lt] at notTwo three
    obtain ⟨tail, tail'⟩ := Bool.and_eq_true_iff.mp tails
    rw [encode_cons, bytes_char, ih others,
      encodeChar_three valid least (Nat.le_of_not_lt notTwo) three tail tail' rfl]
    rfl
  | case10 a notOne notTail notTwo notThree b c d rest tails ih =>
    obtain ⟨least, valid, more, others, rfl⟩ := prepend_eq_some read
    rw [UInt8.lt_iff_toNat_lt] at notThree
    obtain ⟨tails, tail''⟩ := Bool.and_eq_true_iff.mp tails
    obtain ⟨tail, tail'⟩ := Bool.and_eq_true_iff.mp tails
    rw [encode_cons, bytes_char, ih others,
      encodeChar_four valid least (Nat.le_of_not_lt notThree) tail tail' tail'' rfl]
    rfl
  | _ => cases read

/-- The text holds no surrogates. -/
def Encodable (text : Text) : Prop := ∀ c ∈ text, c.isSurrogate = false

instance (text : Text) : Decidable (Encodable text) := inferInstanceAs (Decidable (∀ c ∈ text, c.isSurrogate = false))

theorem unencodable?_eq_none_iff {before : Nat} :
    unencodable? CodePoint.isSurrogate before text = none ↔ Encodable text := by
  induction text generalizing before with
  | nil => simp [unencodable?, Encodable]
  | cons c rest ih =>
    rw [unencodable?, Encodable, List.forall_mem_cons, ← Encodable]
    cases c.isSurrogate <;> simp [ih]

theorem encode?_eq_ok_iff : encode? text = .ok bytes ↔ Encodable text ∧ bytes = encode text := by
  rw [encode?, ← unencodable?_eq_none_iff]
  cases unencodable? CodePoint.isSurrogate 0 text <;> simp [eq_comm]

/-- How many bytes encode the characters before an offset. -/
def offset (text : Text) (i : Nat) : Nat := (encode (text.take i)).length

variable {i j : Nat}

theorem encode_take_append_drop (text : Text) (i : Nat) :
    encode (text.take i) ++ encode (text.drop i) = encode text := by
  rw [← encode_append, List.take_append_drop]

theorem take_offset (text : Text) (i : Nat) : (encode text).take (offset text i) = encode (text.take i) := by
  rw [← encode_take_append_drop text i]
  exact List.take_left' rfl

theorem drop_offset (text : Text) (i : Nat) : (encode text).drop (offset text i) = encode (text.drop i) := by
  rw [← encode_take_append_drop text i]
  exact List.drop_left' rfl

theorem offset_le_length (text : Text) (i : Nat) : offset text i ≤ (encode text).length := by
  rw [← encode_take_append_drop text i, List.length_append]
  exact Nat.le_add_right _ _

theorem offset_take (order : i ≤ j) (text : Text) : offset (text.take j) i = offset text i := by
  rw [offset, List.take_take, Nat.min_eq_left order, offset]

theorem offset_mono (order : i ≤ j) (text : Text) : offset text i ≤ offset text j := by
  rw [← offset_take order]
  exact offset_le_length _ _

theorem slice_offset (order : i ≤ j) (text : Text) :
    ((encode text).take (offset text j)).drop (offset text i) = encode (text.slice i j) := by
  rw [take_offset, ← offset_take order, drop_offset, Text.slice]

end ClassMigration.Utf8
