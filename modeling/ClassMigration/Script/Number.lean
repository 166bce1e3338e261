import ClassMigration.Script.Cursor

/-! Number literals. A name may not follow a number directly. -/
namespace ClassMigration.Script.Number

def isBinaryDigit (c : CodePoint) : Bool := c == '0' || c == '1'

def follows (allowed : CodePoint → Bool) (c : Cursor) : Bool := (c.rest.head?.map allowed).getD false

/-- A number in another base, its digits standing after `opening` characters. -/
def inBase (base : Nat) (isDigit forbidden : CodePoint → Bool) (opening : Nat) (octal : Bool)
    (c : Cursor) : Except Fault (Lexeme × Cursor) :=
  let digits := (c.rest.drop opening).takeWhile isDigit
  let stop := c.skip (opening + digits.length)
  if digits.isEmpty || follows forbidden stop then .error c.illegal
  else .ok (.number (Text.decimal (Text.valueIn base digits)) octal, stop)

/-- A zero and digits that are octal up to the first that is none, unless that is an eight or nine. -/
def isLegacyOctal (rest : Text) : Bool :=
  match rest.dropWhile Text.isOctalDigit with
  | c :: _ => c != '8' && c != '9'
  | [] => true

/-- Digits with an optional fraction and exponent. -/
def inDecimal (c : Cursor) : Except Fault (Lexeme × Cursor) :=
  let whole := c.rest.takeWhile CodePoint.isDigit
  let afterWhole := c.skip whole.length
  let fraction := match afterWhole.rest with
    | '.' :: rest => '.' :: rest.takeWhile CodePoint.isDigit
    | _ => []
  let afterFraction := afterWhole.skip fraction.length
  let exponent : Except Fault Text := match afterFraction.rest with
    | mark :: rest =>
      if mark == 'e' || mark == 'E' then
        let sign := match rest with
          | '+' :: _ => [.char '+']
          | '-' :: _ => [.char '-']
          | _ => []
        let digits := (rest.drop sign.length).takeWhile CodePoint.isDigit
        if digits.isEmpty then .error c.illegal else .ok (mark :: sign ++ digits)
      else .ok []
    | [] => .ok []
  do
    let exponent ← exponent
    let stop := afterFraction.skip exponent.length
    if follows beginsName stop then throw c.illegal
    let value := if (fraction.drop 1).isEmpty && exponent.isEmpty then
      Text.decimal (Text.valueIn 10 whole) else whole ++ fraction ++ exponent
    return (.number value false, stop)

def read (c : Cursor) : Except Fault (Lexeme × Cursor) :=
  match c.rest with
  | '0' :: mark :: rest =>
    let digitOrName (char : CodePoint) : Bool := beginsName char || char.isDigit
    if mark == 'x' || mark == 'X' then inBase 16 Text.isHexDigit beginsName 2 false c
    else if mark == 'b' || mark == 'B' then inBase 2 isBinaryDigit digitOrName 2 false c
    else if mark == 'o' || mark == 'O' then inBase 8 Text.isOctalDigit digitOrName 2 false c
    else if Text.isOctalDigit mark && isLegacyOctal (mark :: rest) then
      inBase 8 Text.isOctalDigit digitOrName 1 true c
    else inDecimal c
  | _ => inDecimal c

end ClassMigration.Script.Number
