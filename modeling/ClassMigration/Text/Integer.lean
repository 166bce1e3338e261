import ClassMigration.Text.Blank

/-! Integers as users write them: in the decimal digits of any script, with a sign, blanks around and single
underscores between digits. -/
namespace ClassMigration

/-- The zeros of Unicode 14's decimal digits; the nine other digits follow each. -/
def decimalZeros : List Nat :=
  [0x30, 0x660, 0x6F0, 0x7C0, 0x966, 0x9E6, 0xA66, 0xAE6, 0xB66, 0xBE6, 0xC66, 0xCE6, 0xD66, 0xDE6,
   0xE50, 0xED0, 0xF20, 0x1040, 0x1090, 0x17E0, 0x1810, 0x1946, 0x19D0, 0x1A80, 0x1A90, 0x1B50,
   0x1BB0, 0x1C40, 0x1C50, 0xA620, 0xA8D0, 0xA900, 0xA9D0, 0xA9F0, 0xAA50, 0xABF0, 0xFF10, 0x104A0,
   0x10D30, 0x11066, 0x110F0, 0x11136, 0x111D0, 0x112F0, 0x11450, 0x114D0, 0x11650, 0x116C0,
   0x11730, 0x118E0, 0x11950, 0x11C50, 0x11D50, 0x11DA0, 0x16A60, 0x16AC0, 0x16B50, 0x1D7CE,
   0x1D7D8, 0x1D7E2, 0x1D7EC, 0x1D7F6, 0x1E140, 0x1E2F0, 0x1E950, 0x1FBF0]

def decimalDigit? (c : CodePoint) : Option Nat :=
  (decimalZeros.find? fun first => first ≤ c.toNat && c.toNat < first + 10).map (c.toNat - ·)

def isDecimalDigit (c : CodePoint) : Bool := (decimalDigit? c).isSome

namespace Integer

/-- A blank around a number; the information separators are none. -/
def isMargin (c : CodePoint) : Bool := isBlank c && (c.toNat < 0x1C || 0x1F < c.toNat)

/-- More digits than these are refused. -/
def digitLimit : Nat := 4300

/-- The value of digits after `value`; an underscore stands between two digits. -/
def valueAfter (value : Nat) : Text → Option Nat
  | [] => some value
  | '_' :: c :: rest =>
    match decimalDigit? c with
    | some digit => valueAfter (value * 10 + digit) rest
    | none => none
  | c :: rest =>
    match decimalDigit? c with
    | some digit => valueAfter (value * 10 + digit) rest
    | none => none

def natural? (text : Text) : Option Nat :=
  if (text.filter (· != .char '_')).length ≤ digitLimit then
    match text with
    | [] => none
    | c :: rest => (decimalDigit? c).bind fun digit => valueAfter digit rest
  else none

end Integer

/-- The integer that a text writes. -/
def Text.integer? (text : Text) : Option Int :=
  let inner := ((text.dropWhile Integer.isMargin).reverse.dropWhile Integer.isMargin).reverse
  match inner with
  | '-' :: digits => (Integer.natural? digits).map fun n => -(n : Int)
  | '+' :: digits => (Integer.natural? digits).map fun n => (n : Int)
  | digits => (Integer.natural? digits).map fun n => (n : Int)

end ClassMigration
