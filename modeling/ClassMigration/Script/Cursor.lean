import ClassMigration.Script.Fault
import ClassMigration.Text.Letter

/-! A place in a script, and the blanks and comments that stand between tokens. -/
namespace ClassMigration.Script

/-- The rest of the script from a place on, with the place's offset and line. -/
structure Cursor where
  rest : Text
  index : Nat
  line : Nat
  deriving DecidableEq, Repr

/-- The characters that end a line; a carriage return and a line feed together end one line. -/
def endsLine (c : CodePoint) : Bool :=
  c == '\n' || c == '\r' || c == '\u2028' || c == '\u2029'

/-- The characters skipped between tokens within a line. -/
def isSpace (c : CodePoint) : Bool :=
  let n := c.toNat
  n == 0x09 || n == 0x0B || n == 0x0C || n == 0x20 || n == 0xA0 || n == 0x1680 || n == 0x180E ||
  (0x2000 ≤ n && n ≤ 0x200A) || n == 0x202F || n == 0x205F || n == 0x3000 || n == 0xFEFF

/-- The character may begin a name; a backslash begins an escaped one. -/
def beginsName (c : CodePoint) : Bool := c == '$' || c == '_' || c == '\\' || Letter.isLetter c

def continuesName (c : CodePoint) : Bool := beginsName c || Letter.isMark c

namespace Cursor

def ofSource (source : Text) : Cursor := ⟨source, 0, 1⟩

/-- The cursor `count` characters on, in the same line. -/
def skip (c : Cursor) (count : Nat) : Cursor := ⟨c.rest.drop count, c.index + count, c.line⟩

/-- No token: the characters at the cursor form none. -/
def illegal (c : Cursor) : Fault := .at c.line .illegal

def atEnd (c : Cursor) : Bool := c.rest.isEmpty

def afterLine : Text → Nat → Nat → Cursor
  | [], index, line => ⟨[], index, line⟩
  | '\r' :: '\n' :: rest, index, line => ⟨rest, index + 2, line + 1⟩
  | c :: rest, index, line =>
    if endsLine c then ⟨rest, index + 1, line + 1⟩ else afterLine rest (index + 1) line

def afterBlock : Text → Nat → Nat → Except Fault Cursor
  | [], _, line => .error (.at line .illegal)
  | '*' :: '/' :: rest, index, line => .ok ⟨rest, index + 2, line⟩
  | '\r' :: '\n' :: rest, index, line => afterBlock rest (index + 2) (line + 1)
  | c :: rest, index, line => afterBlock rest (index + 1) (if endsLine c then line + 1 else line)

/-- Skips blanks and comments. An arrow `-->` begins a comment where only blanks and comments stand
before it in its line or, with `fresh`, at the cursor; `<!--` begins one with `opening`. -/
def skipBlanks (opening : Bool) : Nat → Bool → Cursor → Except Fault Cursor
  | 0, _, _ => .error .exhausted
  | fuel + 1, fresh, c =>
    match c.rest with
    | [] => .ok c
    | '/' :: '/' :: rest => skipBlanks opening fuel true (afterLine rest (c.index + 2) c.line)
    | '/' :: '*' :: rest => do
      skipBlanks opening fuel fresh (← afterBlock rest (c.index + 2) c.line)
    | '-' :: '-' :: '>' :: rest =>
      if fresh then skipBlanks opening fuel fresh (afterLine rest (c.index + 3) c.line) else .ok c
    | '<' :: '!' :: '-' :: '-' :: rest =>
      if opening then skipBlanks opening fuel fresh (afterLine rest (c.index + 4) c.line)
      else .ok c
    | '\r' :: '\n' :: rest => skipBlanks opening fuel true ⟨rest, c.index + 2, c.line + 1⟩
    | char :: rest =>
      if isSpace char then skipBlanks opening fuel fresh ⟨rest, c.index + 1, c.line⟩
      else if endsLine char then skipBlanks opening fuel true ⟨rest, c.index + 1, c.line + 1⟩
      else .ok c

def toToken (fuel : Nat) (opening : Bool) (c : Cursor) : Except Fault Cursor :=
  skipBlanks opening fuel (c.index == 0) c

end Cursor

/-- Exactly `count` hexadecimal digits, as a number continuing `value`. -/
def hexDigits? : Nat → Nat → Text → Option Nat
  | 0, value, _ => some value
  | _ + 1, _, [] => none
  | count + 1, value, c :: rest =>
    match Text.digitValue? c with
    | some digit => hexDigits? count (value * 16 + digit) rest
    | none => none

/-- The code point of digits up to a closing brace, with the count of characters read. -/
def bracedCode? (rest : Text) : Option (Nat × Nat) :=
  let digits := rest.takeWhile Text.isHexDigit
  let code := Text.valueIn 16 digits
  if !digits.isEmpty && code ≤ 0x10FFFF && rest[digits.length]? == some (.char '\x7d') then
    some (code, digits.length + 1)
  else none

end ClassMigration.Script
