import ClassMigration.Text

/-! UTF-8. A text with a surrogate in it cannot be encoded. Decoding is strict: it refuses continuation bytes out of
place, forms longer than a character needs, surrogates and everything beyond the last code point. A byte order mark
is a character. -/
namespace ClassMigration

abbrev Bytes := List UInt8

namespace Utf8

/-- The bytes of a character; a surrogate has none. -/
def bytes : CodePoint → Bytes
  | .char c => String.utf8EncodeChar c
  | .surrogate _ => []

@[simp] theorem bytes_char (c : Char) : bytes (.char c) = String.utf8EncodeChar c := rfl

def encode (text : Text) : Bytes := text.flatMap bytes

@[simp] theorem encode_nil : encode [] = [] := rfl

@[simp] theorem encode_cons (c : CodePoint) (rest : Text) :
    encode (c :: rest) = bytes c ++ encode rest := rfl

theorem encode_append (s t : Text) : encode (s ++ t) = encode s ++ encode t := by
  simp [encode]

/-- Surrogates in a row, from `start` up to, not including, `stop`. -/
structure Unencodable where
  first : CodePoint
  start : Nat
  stop : Nat
  deriving DecidableEq, Repr

/-- The first refused character of a text behind `offset` others, with the surrogates that follow it. -/
def unencodable? (refused : CodePoint → Bool) (offset : Nat) : Text → Option Unencodable
  | [] => none
  | c :: rest =>
    if refused c then some ⟨c, offset, offset + 1 + (rest.takeWhile CodePoint.isSurrogate).length⟩
    else unencodable? refused (offset + 1) rest

/-- The bytes of the text, if all of it are characters. -/
def encode? (text : Text) : Except Unencodable Bytes :=
  match unencodable? CodePoint.isSurrogate 0 text with
  | some found => .error found
  | none => .ok (encode text)

def isTail (b : UInt8) : Bool := 0x80 ≤ b && b < 0xC0

def tailBits (b : UInt8) : Nat := b.toNat - 0x80

/-- Puts a character before the rest; `least` is the first code point that needs so many bytes. -/
def prepend (least code : Nat) (rest : Option Text) : Option Text :=
  if least ≤ code && decide code.isValidChar then rest.map (.char (Char.ofNat code) :: ·) else none

def decode? : Bytes → Option Text
  | [] => some []
  | a :: rest =>
    if a < 0x80 then prepend 0 a.toNat (decode? rest)
    else if a < 0xC0 then none
    else if a < 0xE0 then
      match rest with
      | b :: more =>
        if isTail b then prepend 0x80 ((a.toNat - 0xC0) * 64 + tailBits b) (decode? more) else none
      | [] => none
    else if a < 0xF0 then
      match rest with
      | b :: c :: more =>
        if isTail b && isTail c then
          prepend 0x800 (((a.toNat - 0xE0) * 64 + tailBits b) * 64 + tailBits c) (decode? more)
        else none
      | _ => none
    else
      match rest with
      | b :: c :: d :: more =>
        if isTail b && isTail c && isTail d then
          prepend 0x10000
            ((((a.toNat - 0xF0) * 64 + tailBits b) * 64 + tailBits c) * 64 + tailBits d)
            (decode? more)
        else none
      | _ => none

end Utf8

end ClassMigration
