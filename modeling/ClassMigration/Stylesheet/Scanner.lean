import ClassMigration.Stylesheet.Value

/-! Reading component values from normalized text. Reading never fails: what forms no token is an error
token, and the end of input closes whatever is open. -/
namespace ClassMigration.Stylesheet.Scanner

def isLetter (c : CodePoint) : Bool := c.isAlpha || c == '_' || c.toNat > 0x7F
def isNameChar (c : CodePoint) : Bool := isLetter c || c.isDigit || c == '-'
def isWhite (c : CodePoint) : Bool := c == ' ' || c == '\n' || c == '\t'

def beginsEscape : Text → Bool
  | '\\' :: '\n' :: _ => false
  | '\\' :: _ => true
  | _ => false

/-- A name that can stand alone begins here. -/
def beginsIdent : Text → Bool
  | [] => false
  | '-' :: rest =>
    match rest with
    | [] => false
    | c :: _ => isLetter c || c == '-' || beginsEscape rest
  | c :: rest => isLetter c || beginsEscape (c :: rest)

/-- What an escape stands for after its backslash, and the escape's length. Up to six hexadecimal digits make
one, with a white character after them; nothing at all makes the replacement character. -/
def escaped (rest : Text) : CodePoint × Nat :=
  let digits := (rest.take 6).takeWhile Text.isHexDigit
  if digits.isEmpty then
    match rest with
    | c :: _ => (c, 1)
    | [] => ('\uFFFD', 0)
  else
    let code := Text.valueIn 16 digits
    let char := if code != 0 && code ≤ 0x10FFFF then CodePoint.ofNat code else '\uFFFD'
    let white := match rest.drop digits.length with
      | c :: _ => isWhite c
      | [] => false
    (char, digits.length + if white then 1 else 0)

def name : Nat → Text → Text × Nat
  | 0, _ => ([], 0)
  | _ + 1, [] => ([], 0)
  | fuel + 1, c :: rest =>
    if isNameChar c then
      let (more, length) := name fuel rest
      (c :: more, length + 1)
    else if beginsEscape (c :: rest) then
      let (char, skipped) := escaped rest
      let (more, length) := name fuel (rest.drop skipped)
      (char :: more, length + skipped + 1)
    else ([], 0)

inductive Ending where
  | closed
  | broken
  | endOfInput
  deriving DecidableEq

/-- A string after its opening quote: its value, its length and how it ends. -/
def quoted (quote : CodePoint) : Nat → Text → Text × Nat × Ending
  | 0, _ => ([], 0, .endOfInput)
  | _ + 1, [] => ([], 0, .endOfInput)
  | fuel + 1, c :: rest =>
    if c == quote then ([], 1, .closed)
    else if c == '\\' then
      match rest with
      | [] => ([], 1, .endOfInput)
      | '\n' :: rest =>
        let (more, length, ending) := quoted quote fuel rest
        (more, length + 2, ending)
      | _ =>
        let (char, skipped) := escaped rest
        let (more, length, ending) := quoted quote fuel (rest.drop skipped)
        (char :: more, length + skipped + 1, ending)
    else if c == '\n' then ([], 0, .broken)
    else
      let (more, length, ending) := quoted quote fuel rest
      (c :: more, length + 1, ending)

/-- The length of what is left of a bad address, up to its parenthesis. -/
def badUrlLength : Text → Nat
  | [] => 0
  | '\\' :: ')' :: rest => badUrlLength rest + 2
  | ')' :: _ => 1
  | _ :: rest => badUrlLength rest + 1

def isControl (c : CodePoint) : Bool :=
  let n := c.toNat
  n ≤ 8 || n == 0x0B || (0x0E ≤ n && n ≤ 0x1F) || n == 0x7F

/-- An address without quotes, at its first character: its value and length, and whether it is
closed. Without a value it is a bad one. -/
def urlBody : Nat → Text → Option Text × Nat × Bool
  | 0, _ => (some [], 0, false)
  | _ + 1, [] => (some [], 0, false)
  | fuel + 1, c :: rest =>
    if c == ')' then (some [], 1, true)
    else if isWhite c then
      let white := (rest.takeWhile isWhite).length
      match rest.drop white with
      | [] => (some [], white + 1, false)
      | ')' :: _ => (some [], white + 2, true)
      | bad => (none, white + 1 + badUrlLength bad, true)
    else if beginsEscape (c :: rest) then
      let (char, skipped) := escaped rest
      let (more, length, closed) := urlBody fuel (rest.drop skipped)
      (more.map (char :: ·), length + skipped + 1, closed)
    else if c == '"' || c == '\'' || c == '(' || isControl c then
      (none, 1 + badUrlLength rest, true)
    else
      let (more, length, closed) := urlBody fuel rest
      (more.map (c :: ·), length + 1, closed)

/-- The tokens of an address after its opening parenthesis, and its length. -/
def url (fuel : Nat) (rest : Text) : List Lexeme × Nat :=
  let white := (rest.takeWhile isWhite).length
  let (value, length, closed) := urlBody fuel (rest.drop white)
  let lexemes := match value with
    | none => [.badUrl]
    | some value => if closed then [.url value true] else [.url value false, .endInUrl]
  (lexemes, white + length)

/-- An address in quotes follows, so its parenthesis opens a function. -/
def quoteFollows (rest : Text) : Bool :=
  match rest.dropWhile isWhite with
  | c :: _ => c == '"' || c == '\''
  | [] => false

def digitsLength (rest : Text) : Nat :=
  let whole := (rest.takeWhile CodePoint.isDigit).length
  match rest.drop whole with
  | '.' :: more =>
    let fraction := (more.takeWhile CodePoint.isDigit).length
    if fraction == 0 then whole else whole + 1 + fraction
  | _ => whole

def signLength : Text → Nat
  | '+' :: _ => 1
  | '-' :: _ => 1
  | _ => 0

def exponentLength : Text → Nat
  | c :: rest =>
    if c == 'e' || c == 'E' then
      let sign := signLength rest
      let digits := ((rest.drop sign).takeWhile CodePoint.isDigit).length
      if digits == 0 then 0 else 1 + sign + digits
    else 0
  | [] => 0

/-- The length of the number at the start of the text; zero if there is none. -/
def numberLength (rest : Text) : Nat :=
  let sign := signLength rest
  let digits := digitsLength (rest.drop sign)
  if digits == 0 then 0
  else sign + digits + exponentLength (rest.drop (sign + digits))

/-- A range of code points after `U+`: at most six digits, question marks for the last of them, or two
numbers; and its length. -/
def unicodeRange (rest : Text) : Lexeme × Nat :=
  let digits := (rest.take 6).takeWhile Text.isHexDigit
  let afterDigits := rest.drop digits.length
  let wild := (afterDigits.take (6 - digits.length)).takeWhile (· == .char '?')
  let value (suffix : CodePoint) : Nat := Text.valueIn 16 (digits ++ wild.map fun _ => suffix)
  if !wild.isEmpty then (.unicodeRange (value '0') (value 'F'), digits.length + wild.length)
  else match afterDigits with
    | '-' :: more =>
      let last := (more.take 6).takeWhile Text.isHexDigit
      if last.isEmpty then (.unicodeRange (value '0') (value '0'), digits.length)
      else (.unicodeRange (value '0') (Text.valueIn 16 last), digits.length + 1 + last.length)
    | _ => (.unicodeRange (value '0') (value '0'), digits.length)

/-- The length of a comment's text after its opening, and whether it is closed. -/
def commentLength : Text → Nat × Bool
  | [] => (0, false)
  | '*' :: '/' :: _ => (0, true)
  | _ :: rest =>
    let (length, closed) := commentLength rest
    (length + 1, closed)

inductive Reading where
  /-- Tokens that hold no others, and their length. -/
  | tokens (lexemes : List Lexeme) (length : Nat)
  /-- The opening of a function of some length. -/
  | function (name : Text) (length : Nat)
  | block (bracket : Bracket)

def one (lexeme : Lexeme) (length : Nat) : Reading := .tokens [lexeme] length

def beginsRange : Text → Bool
  | u :: '+' :: c :: _ => (u == 'u' || u == 'U') && (Text.isHexDigit c || c == '?')
  | _ => false

def readIdent (fuel : Nat) (text : Text) : Reading :=
  let (name, length) := name fuel text
  match text.drop length with
  | '(' :: rest =>
    if Text.lowered name == "url".codePoints && !quoteFollows rest then
      let (lexemes, more) := url fuel rest
      .tokens lexemes (length + 1 + more)
    else .function name (length + 1)
  | _ => one (.ident name) length

def readNumber (fuel : Nat) (text : Text) (length : Nat) : Reading :=
  let written := text.take length
  let rest := text.drop length
  if beginsIdent rest then
    let (unit, more) := name fuel rest
    one (.dimension written unit) (length + more)
  else if rest.head? == some (.char '%') then one (.percentage written) (length + 1)
  else one (.number written) length

def readString (fuel : Nat) (quote : CodePoint) (rest : Text) : Reading :=
  let (value, length, ending) := quoted quote fuel rest
  .tokens (match ending with
    | .closed => [.string value true]
    | .broken => [.badString]
    | .endOfInput => [.string value false, .endInString]) (length + 1)

/-- Reads at the start of a text that is not empty and begins with no bracket due. -/
def read (fuel : Nat) (text : Text) : Reading :=
  match text with
  | [] => .tokens [] 0
  | c :: rest =>
    let number := numberLength text
    if isWhite c then
      let white := text.takeWhile isWhite
      one (.whitespace white) white.length
    else if beginsRange text then
      let (range, length) := unicodeRange (text.drop 2)
      one range (length + 2)
    else if Text.startsWith text "-->".codePoints then one (.mark "-->".codePoints) 3
    else if beginsIdent text then readIdent fuel text
    else if number != 0 then readNumber fuel text number
    else match c with
      | '@' =>
        if beginsIdent rest then
          let (name, length) := name fuel rest
          one (.atKeyword name) (length + 1)
        else one (.mark [.char '@']) 1
      | '#' =>
        if (rest.head?.map isNameChar).getD false || beginsEscape rest then
          let (name, length) := name fuel rest
          one (.hash name (beginsIdent rest)) (length + 1)
        else one (.mark [.char '#']) 1
      | '\x7b' => .block .curly
      | '[' => .block .square
      | '(' => .block .round
      | '\x7d' | ']' | ')' => one (.unmatched c) 1
      | '"' | '\'' => readString fuel c rest
      | _ =>
        if Text.startsWith text [.char '/', .char '*'] then
          let body := text.drop 2
          let (length, closed) := commentLength body
          one (.comment (body.take length)) (2 + length + if closed then 2 else 0)
        else if Text.startsWith text "<!--".codePoints then one (.mark "<!--".codePoints) 4
        else if Text.startsWith text [.char '|', .char '|'] then one (.mark [.char '|', .char '|']) 2
        else if "~|^$*".codePoints.contains c && rest.head? == some (.char '=') then one (.mark [c, '=']) 2
        else one (.mark [c]) 1

/-- The values up to the bracket that closes them or to the end of input, and the text after them with its
position. -/
def values : Nat → Option CodePoint → Position → Text → List Value × Position × Text
  | 0, _, place, text => ([], place, text)
  | _ + 1, _, place, [] => ([], place, [])
  | fuel + 1, closing, place, c :: rest =>
    if some c == closing then ([], place.step c, rest)
    else
      let text := c :: rest
      let inside (length : Nat) (due : CodePoint) (make : List Value → Value) :
          List Value × Position × Text :=
        let (inner, afterInner, restInner) :=
          values fuel (some due) (place.after (text.take length)) (text.drop length)
        let (more, stop, restMore) := values fuel closing afterInner restInner
        (make inner :: more, stop, restMore)
      match read (fuel + 1) text with
      | .tokens lexemes length =>
        let (more, stop, restMore) :=
          values fuel closing (place.after (text.take length)) (text.drop length)
        (lexemes.map (.token place) ++ more, stop, restMore)
      | .function name length => inside length ')' (.function place name)
      | .block bracket => inside 1 bracket.closing (.block place bracket)

end Scanner

def valuesOf (source : Text) : List Value :=
  let text := normalized source
  (Scanner.values (text.length + 1) none .first text).1

end ClassMigration.Stylesheet
