import ClassMigration.Stylesheet.Scanner

/-! Component values written as text that reads back as the same values. Names are escaped where they have
to be, and an empty comment keeps neighbours apart that would read as one token. -/
namespace ClassMigration.Stylesheet

namespace Serialize

def lineEscape? : CodePoint → Option Text
  | '\n' => some "\\A ".codePoints
  | '\r' => some "\\D ".codePoints
  | '\x0c' => some "\\C ".codePoints
  | _ => none

def nameChar (c : CodePoint) : Text :=
  if Scanner.isNameChar c then [c] else (lineEscape? c).getD ['\\', c]

def name (text : Text) : Text := text.flatMap nameChar

/-- The first character of a name that stands alone; a digit cannot. -/
def firstChar (c : CodePoint) : Text :=
  if Scanner.isLetter c then [c]
  else (lineEscape? c).getD
    (if c.isDigit then .char '\\' :: Text.hexadecimal c.toNat ++ [.char ' '] else [.char '\\', c])

def ident : Text → Text
  | [] => []
  | ['-'] => [.char '\\', .char '-']
  | '-' :: '-' :: rest => '-' :: '-' :: name rest
  | '-' :: c :: rest => .char '-' :: firstChar c ++ name rest
  | c :: rest => firstChar c ++ name rest

def stringChar (c : CodePoint) : Text :=
  if c == '"' || c == '\\' then ['\\', c] else (lineEscape? c).getD [c]

def urlChar (c : CodePoint) : Text :=
  if "'\"\\ ()".codePoints.contains c then ['\\', c]
  else if c == '\t' then "\\9 ".codePoints
  else (lineEscape? c).getD [c]

/-- The unit of a number. One that would read as an exponent gets its first letter escaped. -/
def unit (text : Text) : Text :=
  match text with
  | c :: rest =>
    if (c == 'e' || c == 'E') && (rest.isEmpty || rest.head? == some (.char '-')) then
      "\\65 ".codePoints ++ name rest
    else ident text
  | [] => []

def lexeme : Lexeme → Text
  | .whitespace text => text
  | .comment text => .char '/' :: .char '*' :: text ++ [.char '*', .char '/']
  | .mark text => text
  | .ident name => ident name
  | .atKeyword name => '@' :: ident name
  | .hash text isIdent => '#' :: if isIdent then ident text else name text
  | .string value closed => .char '"' :: value.flatMap stringChar ++ if closed then [.char '"'] else []
  | .url value closed =>
    "url(".codePoints ++ value.flatMap urlChar ++ if closed then [.char ')'] else []
  | .number written => written
  | .percentage written => written ++ [.char '%']
  | .dimension written text => written ++ unit text
  | .unicodeRange first last =>
    if first = last then 'U' :: '+' :: Text.hexadecimal first
    else .char 'U' :: .char '+' :: Text.hexadecimal first ++ .char '-' :: Text.hexadecimal last
  | .badString => "\"[bad string]\n".codePoints
  | .badUrl => "url([bad url])".codePoints
  | .unmatched closing => [closing]
  | .endInString => []
  | .endInUrl => []

/-- What matters about a value to its neighbours. -/
inductive Shape where
  | ident
  | atKeyword
  | hash
  | number
  | percentage
  | dimension
  | function
  | url
  | unicodeRange
  | round
  | mark (text : Text)
  /-- White space, and whether a line feed begins it. -/
  | white (newline : Bool)
  | other
  deriving DecidableEq

def shape : Value → Shape
  | .token _ lexeme => match lexeme with
    | .ident _ => .ident
    | .atKeyword _ => .atKeyword
    | .hash .. => .hash
    | .number _ => .number
    | .percentage _ => .percentage
    | .dimension .. => .dimension
    | .url .. => .url
    | .unicodeRange .. => .unicodeRange
    | .mark text => .mark text
    | .whitespace text => .white (text.head? == some (.char '\n'))
    | _ => .other
  | .function .. => .function
  | .block _ .round _ => .round
  | .block .. => .other

def sign (c : CodePoint) : Shape := .mark [c]

/-- Two neighbours that would not read as themselves without a comment between them. -/
def fuses (a b : Shape) : Bool :=
  let named := [Shape.ident, .function, .url]
  let numeric := [Shape.number, .percentage, .dimension]
  let words := [Shape.ident, .atKeyword, .hash, .dimension]
  ((words ++ [sign '#', sign '-', Shape.number]).contains a &&
    (named ++ numeric ++ [Shape.unicodeRange]).contains b) ||
  (words.contains a && [sign '-', Shape.mark "-->".codePoints].contains b) ||
  ([sign '#', sign '-', Shape.number, sign '@'].contains a && named.contains b) ||
  ([Shape.unicodeRange, sign '.', sign '+'].contains a && numeric.contains b) ||
  (a == sign '@' && (named ++ [Shape.unicodeRange, sign '-']).contains b) ||
  (a == .unicodeRange && [Shape.ident, .function, sign '?'].contains b) ||
  (["$", "*", "^", "~", "|"].any (fun s => a == .mark s.codePoints) && b == sign '=') ||
  (a == .ident && b == .round) || (a == sign '|' && b == sign '|') || (a == sign '/' && b == sign '*')

def between (a : Option Shape) (b : Shape) : Text :=
  match a with
  | none => []
  | some a =>
    if fuses a b then "/**/".codePoints
    else if a == sign '\\' && b != .white true then [.char '\n']
    else []

mutual

/-- Whether the last argument, or the last one of a function that it is, ends inside a string; such a
function is left open. -/
def endsInString : List Value → Bool
  | [] => false
  | [value] => valueEndsInString value
  | _ :: more => endsInString more

def valueEndsInString : Value → Bool
  | .token _ lexeme => lexeme == .endInString
  | .function _ _ arguments => endsInString arguments
  | .block .. => false

end

mutual

def value : Value → Text
  | .token _ l => lexeme l
  | .function _ name arguments =>
    ident name ++ .char '(' :: valuesAfter none arguments ++
      if endsInString arguments then [] else [.char ')']
  | .block _ bracket content =>
    bracket.opening :: valuesAfter none content ++ [bracket.closing]

/-- Values in order, the first after a neighbour if there is one. -/
def valuesAfter : Option Shape → List Value → Text
  | _, [] => []
  | before, v :: more =>
    between before (shape v) ++ value v ++ valuesAfter (some (shape v)) more

end

end Serialize

def serialized (values : List Value) : Text := Serialize.valuesAfter none values

namespace Value

def serialized (value : Value) : Text := Serialize.value value

end Value

end ClassMigration.Stylesheet
