import ClassMigration.Text

/-! Numbers in digits. -/
namespace ClassMigration.Text

/-- The digits of a number, appended before `rest`; `fuel` bounds their count. -/
def digitsBefore : Nat → Nat → Text → Text
  | 0, _, rest => rest
  | fuel + 1, n, rest =>
    let digit := CodePoint.ofNat (48 + n % 10)
    if n < 10 then digit :: rest else digitsBefore fuel (n / 10) (digit :: rest)

def decimal (n : Nat) : Text := digitsBefore (n.log2 + 1) n []

def digitValue? (c : CodePoint) : Option Nat :=
  if c.isDigit then some (c.toNat - 48)
  else if 'a' ≤ c && c ≤ 'f' then some (c.toNat - 87)
  else if 'A' ≤ c && c ≤ 'F' then some (c.toNat - 55)
  else none

def isHexDigit (c : CodePoint) : Bool := (digitValue? c).isSome

def isOctalDigit (c : CodePoint) : Bool := '0' ≤ c && c ≤ '7'

/-- The value of digits in a base; characters that are no digits count as zero. -/
def valueIn (base : Nat) (digits : Text) : Nat :=
  digits.foldl (fun value c => value * base + (digitValue? c).getD 0) 0

/-- The hexadecimal digits, in upper case, appended before `rest`. -/
def hexBefore : Nat → Nat → Text → Text
  | 0, _, rest => rest
  | fuel + 1, n, rest =>
    let d := n % 16
    let digit := CodePoint.ofNat (if d < 10 then 48 + d else 55 + d)
    if n < 16 then digit :: rest else hexBefore fuel (n / 16) (digit :: rest)

def hexadecimal (n : Nat) : Text := hexBefore (n.log2 + 1) n []

end ClassMigration.Text
