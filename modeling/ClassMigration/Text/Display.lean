import ClassMigration.Text.Decimal
import ClassMigration.Text.Printable

/-! A text as messages show it: between quotes, with escapes for what cannot be printed. -/
namespace ClassMigration.Text

/-- The last `width` hexadecimal digits of a number, in lower case. -/
def lowerHex (width n : Nat) : Text :=
  let digits := (hexadecimal n).map CodePoint.toLower
  List.replicate (width - digits.length) (.char '0') ++ digits

def displayedChar (quote c : CodePoint) : Text :=
  if c == quote || c == '\\' then ['\\', c]
  else if c == '\n' then [.char '\\', .char 'n']
  else if c == '\r' then [.char '\\', .char 'r']
  else if c == '\t' then [.char '\\', .char 't']
  else if isPrintable c then [c]
  else if c.toNat < 0x100 then '\\' :: 'x' :: lowerHex 2 c.toNat
  else if c.toNat < 0x10000 then '\\' :: 'u' :: lowerHex 4 c.toNat
  else '\\' :: 'U' :: lowerHex 8 c.toNat

/-- The text between single quotes, or between double ones if it has single quotes alone. -/
def displayed (text : Text) : Text :=
  let quote : CodePoint := if text.contains '\'' && !text.contains '"' then '"' else '\''
  quote :: text.flatMap (displayedChar quote) ++ [quote]

end ClassMigration.Text
