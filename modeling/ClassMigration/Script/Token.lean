import ClassMigration.Span

/-! Tokens of a script and the words with a meaning of their own. -/
namespace ClassMigration.Script

inductive Lexeme where
  | endOfInput
  | identifier (name : Text)
  | keyword (word : Text)
  | boolean (value : Bool)
  | null
  /-- A number by its value, `octal` when written with a leading zero. -/
  | number (value : Text) (octal : Bool)
  /-- A string by its meaning and as written, `octal` when an octal escape occurs in it. -/
  | string (value written : Text) (octal : Bool)
  /-- Text of a template up to the next slot or its end; `opens` and `closes` tell whether the
  template's own delimiters stand at its two ends. -/
  | chunk (raw : Text) (opens closes : Bool)
  | punctuator (mark : Text)
  /-- A name inside an element's tag. -/
  | tagName (name : Text)
  deriving DecidableEq, Repr

structure Token where
  lexeme : Lexeme
  start : Nat
  stop : Nat
  /-- The line on which the token ends. -/
  line : Nat
  deriving DecidableEq, Repr

namespace Lexeme

def text : Lexeme → Text
  | endOfInput => []
  | identifier name => name
  | keyword word => word
  | boolean true => "true".codePoints
  | boolean false => "false".codePoints
  | null => "null".codePoints
  | number value _ => value
  | string value _ _ => value
  | chunk raw _ _ => raw
  | punctuator mark => mark
  | tagName name => name

/-- Nothing to name: the end of input, an empty string or zero. -/
def isVacant : Lexeme → Bool
  | number value _ => value == [.char '0']
  | lexeme => lexeme.text.isEmpty

/-- A word that may stand as a property name. -/
def isWord : Lexeme → Bool
  | identifier _ | keyword _ | boolean _ | null => true
  | _ => false

def beginsKey : Lexeme → Bool
  | identifier _ | string .. | boolean _ | null | number .. | keyword _ => true
  | punctuator mark => mark == [.char '[']
  | _ => false

def isOctal : Lexeme → Bool
  | number _ octal => octal
  | string _ _ octal => octal
  | _ => false

end Lexeme

/-- Words that never name anything. -/
def keywords : List Text :=
  ["if", "in", "do", "var", "for", "new", "try", "let", "this", "else", "case", "void", "with",
    "enum", "while", "break", "catch", "throw", "const", "yield", "class", "super", "return",
    "typeof", "delete", "switch", "export", "import", "default", "finally", "extends", "function",
    "continue", "debugger", "instanceof"].map String.codePoints

/-- Keywords that a later edition of the language may use elsewhere. -/
def futureWords : List Text := ["enum", "export", "import", "super"].map String.codePoints

/-- Words reserved in strict code. -/
def strictWords : List Text :=
  ["implements", "interface", "package", "private", "protected", "public", "static", "yield",
    "let"].map String.codePoints

/-- Names that strict code may not bind or assign. -/
def restrictedNames : List Text := ["eval", "arguments"].map String.codePoints

def isRestricted (name : Text) : Bool := restrictedNames.contains name

def Lexeme.ofWord (word : Text) : Lexeme :=
  if word.length == 1 then .identifier word
  else if keywords.contains word then .keyword word
  else if word == "null".codePoints then .null
  else if word == "true".codePoints then .boolean true
  else if word == "false".codePoints then .boolean false
  else .identifier word

/-- In strict code the strict words are keywords. -/
def Lexeme.inStrictCode : Lexeme → Lexeme
  | .identifier name => if strictWords.contains name then .keyword name else .identifier name
  | lexeme => lexeme

end ClassMigration.Script
