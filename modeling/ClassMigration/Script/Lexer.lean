import ClassMigration.Script.Number
import ClassMigration.Script.Quotation
import ClassMigration.Script.Word

/-! Reading one token. Open braces are remembered, because a closing brace ends a slot and goes on with
the template's text exactly when the innermost open brace is a slot's. -/
namespace ClassMigration.Script

/-- What opened a brace. -/
inductive Brace where
  | curly
  | slot
  deriving DecidableEq, Repr

/-- The punctuators, each before those that it begins with. -/
def punctuators : List Text :=
  [">>>=", "===", "!==", ">>>", "<<=", ">>=", "**=", "...", "&&", "||", "==", "!=", "+=", "-=",
    "*=", "/=", "++", "--", "<<", ">>", "&=", "|=", "^=", "%=", "<=", ">=", "=>", "**", "(", ")",
    "\x7b", "\x7d", ".", ";", ",", "[", "]", ":", "?", "~", "<", ">", "=", "!", "+", "-", "*", "%",
    "&", "|", "^", "/"].map String.codePoints

namespace Lexer

def punctuator (braces : List Brace) (c : Cursor) :
    Except Fault (Lexeme × List Brace × Cursor) :=
  match punctuators.find? (Text.startsWith c.rest) with
  | none => .error c.illegal
  | some mark =>
    let braces := match mark with
      | ['\x7b'] => .curly :: braces
      | ['\x7d'] => braces.drop 1
      | _ => braces
    .ok (.punctuator mark, braces, c.skip mark.length)

/-- The chunk at the cursor. A slot that follows it is open afterwards, one before it no longer. -/
def chunk (fuel : Nat) (braces : List Brace) (c : Cursor) :
    Except Fault (Lexeme × List Brace × Cursor) := do
  let (lexeme, stop) ← Quotation.readChunk fuel c
  let braces := match lexeme with
    | .chunk _ true true => braces
    | .chunk _ true false => .slot :: braces
    | .chunk _ false true => braces.drop 1
    | _ => braces
  return (lexeme, braces, stop)

def lexeme (fuel : Nat) (braces : List Brace) (c : Cursor) :
    Except Fault (Lexeme × List Brace × Cursor) :=
  let kept (read : Except Fault (Lexeme × Cursor)) : Except Fault (Lexeme × List Brace × Cursor) :=
    read.map fun (lexeme, stop) => (lexeme, braces, stop)
  match c.rest with
  | [] => .ok (.endOfInput, braces, c)
  | char :: rest =>
    if beginsName char then kept (Word.read fuel c)
    else if char == '\'' || char == '"' then kept (Quotation.read fuel char c)
    else if char.isDigit || (char == '.' && (rest.head?.map CodePoint.isDigit).getD false) then
      kept (Number.read c)
    else if char == '\x60' || (char == '\x7d' && braces.head? == some .slot) then
      chunk fuel braces c
    else punctuator braces c

def token (fuel : Nat) (braces : List Brace) (c : Cursor) :
    Except Fault (Token × List Brace × Cursor) := do
  let (lexeme, braces, stop) ← lexeme fuel braces c
  return (⟨lexeme, c.index, stop.index, stop.line⟩, braces, stop)

end Lexer

end ClassMigration.Script
