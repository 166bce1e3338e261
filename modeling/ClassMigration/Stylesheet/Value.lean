import ClassMigration.Stylesheet.Position
import ClassMigration.Text.Decimal

/-! Component values of a stylesheet: its tokens, with functions and blocks holding the values inside
them. Errors of tokens are tokens themselves. -/
namespace ClassMigration.Stylesheet

inductive Bracket where
  | curly
  | square
  | round
  deriving DecidableEq, Repr

def Bracket.opening : Bracket → CodePoint
  | curly => '\x7b'
  | square => '['
  | round => '('

def Bracket.closing : Bracket → CodePoint
  | curly => '\x7d'
  | square => ']'
  | round => ')'

/-- A token that holds no others. Names are kept with their escapes resolved. -/
inductive Lexeme where
  | whitespace (text : Text)
  | comment (text : Text)
  | mark (text : Text)
  | ident (name : Text)
  | atKeyword (name : Text)
  /-- A name after `#`, which need not be able to stand alone. -/
  | hash (name : Text) (isIdent : Bool)
  | string (value : Text) (closed : Bool)
  | url (value : Text) (closed : Bool)
  | number (written : Text)
  | percentage (written : Text)
  | dimension (written unit : Text)
  | unicodeRange (first last : Nat)
  /-- A string that a line end breaks off. -/
  | badString
  | badUrl
  | unmatched (closing : CodePoint)
  /-- The input ends inside the string or address before. -/
  | endInString
  | endInUrl
  deriving DecidableEq, Repr

inductive Value where
  | token (place : Position) (lexeme : Lexeme)
  | function (place : Position) (name : Text) (arguments : List Value)
  | block (place : Position) (bracket : Bracket) (content : List Value)
  deriving Repr

namespace Value

def place : Value → Position
  | token place _ => place
  | function place _ _ => place
  | block place _ _ => place

def lexeme? : Value → Option Lexeme
  | token _ lexeme => some lexeme
  | _ => none

def isMark (value : Value) (text : String) : Bool := value.lexeme? == some (.mark text.codePoints)

def isGap (value : Value) : Bool :=
  match value.lexeme? with
  | some (.whitespace _) | some (.comment _) => true
  | _ => false

def ident? (value : Value) : Option Text :=
  match value.lexeme? with
  | some (.ident name) => some name
  | _ => none

def curly? : Value → Option (List Value)
  | block _ .curly content => some content
  | _ => none

end Value

end ClassMigration.Stylesheet
