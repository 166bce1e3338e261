import ClassMigration.Script.Lexer
import ClassMigration.Script.RegExp
import ClassMigration.Script.Tree

/-! The state of a parser and its steps over tokens. The token ahead is always read already, so the
cursor stands after it. -/
namespace ClassMigration.Script

/-- What the constructs around a place allow there, and what is known of the expression just read. -/
structure Context where
  await : Bool
  allowIn : Bool
  /-- A `'use strict'` directive may stand in the function being read. -/
  allowStrictDirective : Bool
  /-- `yield` is no operator here. -/
  allowYield : Bool
  /-- The `=` of a shorthand property with a value, which only a pattern may hold. -/
  coverInitializer : Option Token
  /-- The expression may be assigned to. -/
  assignable : Bool
  /-- The expression may be a parameter. -/
  bindable : Bool
  inFunction : Bool
  inLoop : Bool
  inSwitch : Bool
  labels : List Text
  deriving Repr

def Context.initial : Context where
  await := false
  allowIn := true
  allowStrictDirective := true
  allowYield := true
  coverInitializer := none
  assignable := false
  bindable := false
  inFunction := false
  inLoop := false
  inSwitch := false
  labels := []

structure Mark where
  index : Nat
  line : Nat
  deriving DecidableEq, Repr

structure State where
  /-- Bounds the turns of each loop; one more than the characters of the script. -/
  bound : Nat
  cursor : Cursor
  braces : List Brace
  ahead : Token
  /-- A line ends between the last token and the one ahead. -/
  newline : Bool
  /-- Where the token ahead begins. -/
  start : Cursor
  /-- Where the last token ends. -/
  last : Mark
  context : Context
  deriving Repr

abbrev Parse := StateT State (Except Fault)

namespace Parse

def mark (c : Cursor) : Mark := ⟨c.index, c.line⟩

/-- The state before the first token is read. Only there does `<!--` open a comment, and only the first
token may be a strict word. -/
def begin (source : Text) : Except Fault State := do
  let bound := source.length + 1
  let start ← (Cursor.ofSource source).toToken bound true
  let (ahead, braces, cursor) ← Lexer.token bound [] start
  return {
    bound, cursor, braces, ahead, start
    newline := ahead.line != 1
    last := mark cursor
    context := .initial }

def failAfter (cause : Cause) : Parse α := do throw (.at (← get).last.line cause)

def failHere (cause : Cause) : Parse α := do throw (.at (← get).cursor.line cause)

def failAt (token : Token) (cause : Cause) : Parse α := throw (.at token.line cause)

def unexpected (token : Token) : Parse α := failAt token (.unexpected token.lexeme)

def ahead : Parse Token := return (← get).ahead

def unexpectedAhead : Parse α := do unexpected (← ahead)

def context : Parse Context := return (← get).context

def setContext (change : Context → Context) : Parse Unit :=
  modify fun s => { s with context := change s.context }

/-- Reads on by one token and gives the one that was ahead. -/
def next : Parse Token := do
  let s ← get
  let start ← s.cursor.toToken s.bound false
  let (token, braces, cursor) ← Lexer.token s.bound s.braces start
  let token := { token with lexeme := token.lexeme.inStrictCode }
  set { s with
    cursor, braces, start
    ahead := token
    newline := s.ahead.line != token.line
    last := mark s.cursor }
  return s.ahead

/-- The token after the one ahead, as it is outside strict code. Braces read on the way count. -/
def afterAhead : Parse Token := do
  let s ← get
  let start ← s.cursor.toToken s.bound false
  let (token, braces, _) ← Lexer.token s.bound s.braces start
  set { s with braces }
  return token

/-- Reads the token ahead again as a regular expression, and reads on. -/
def nextRegExp : Parse Unit := do
  let s ← get
  let origin := { s.cursor with rest := s.start.rest, index := s.start.index }
  let stop ← RegExp.read origin
  set { s with cursor := stop, ahead := ⟨.endOfInput, s.start.index, stop.index, stop.line⟩ }
  discard next

def isMark (lexeme : Lexeme) (symbol : String) : Bool := lexeme == .punctuator symbol.codePoints
def isKeyword (lexeme : Lexeme) (word : String) : Bool := lexeme == .keyword word.codePoints
def isName (lexeme : Lexeme) (name : String) : Bool := lexeme == .identifier name.codePoints

def sees (symbol : String) : Parse Bool := return isMark (← ahead).lexeme symbol

def seesAny (symbols : List String) : Parse Bool :=
  return symbols.any (isMark (← ahead).lexeme)

def seesKeyword (word : String) : Parse Bool := return isKeyword (← ahead).lexeme word

def seesAnyKeyword (words : List String) : Parse Bool :=
  return words.any (isKeyword (← ahead).lexeme)

/-- The token ahead is this name, which means something of its own here. -/
def seesName (name : String) : Parse Bool := return isName (← ahead).lexeme name

def atEnd : Parse Bool := return (← ahead).lexeme == .endOfInput

def newlineAhead : Parse Bool := return (← get).newline

def expect (symbol : String) : Parse Unit := do
  let token ← next
  unless isMark token.lexeme symbol do unexpected token

def expectKeyword (word : String) : Parse Unit := do
  let token ← next
  unless isKeyword token.lexeme word do unexpected token

def here : Parse Nat := return (← get).start.index

def spanFrom (start : Nat) : Parse Span := return ⟨start, (← get).last.index⟩

/-- Ends a statement: at a semicolon, a line end, a closing brace or the end of input. -/
def semicolon : Parse Unit := do
  if ← sees ";" then discard next
  else if !(← newlineAhead) then
    unless (← atEnd) || (← sees "\x7d") do unexpectedAhead
    modify fun s => { s with last := mark s.start }

def turns (step : α → Parse (α ⊕ β)) : Nat → α → Parse β
  | 0, _ => throw .exhausted
  | fuel + 1, a => do
    match ← step a with
    | .inl a => turns step fuel a
    | .inr b => return b

def loop (start : α) (step : α → Parse (α ⊕ β)) : Parse β := do
  turns step ((← get).bound + 1) start

def whilst (more : Parse Bool) (item : Parse α) : Parse (List α) :=
  loop [] fun items => do
    if ← more then return .inl (items ++ [← item]) else return .inr items

def itemsUntil (closing : String) (item : Parse α) : Parse (List α) :=
  whilst (return !(← sees closing)) item

/-- Items with commas between them, also after the last, until the closing punctuator. -/
def commaUntil (closing : String) (item : Parse α) : Parse (List α) :=
  itemsUntil closing do
    let made ← item
    unless ← sees closing do expect ","
    return made

/-- Reads an expression that is neither a target nor a parameter for the constructs around it. -/
def isolated (parse : Parse α) : Parse α := do
  let before ← context
  setContext fun c => { c with assignable := true, bindable := true, coverInitializer := none }
  let made ← parse
  if let some token := (← context).coverInitializer then unexpected token
  setContext fun c => { c with
    assignable := before.assignable
    bindable := before.bindable
    coverInitializer := before.coverInitializer }
  return made

/-- Reads a part of an expression, which spoils the whole if it is no target or parameter itself. -/
def inherited (parse : Parse α) : Parse α := do
  let before ← context
  setContext fun c => { c with assignable := true, bindable := true, coverInitializer := none }
  let made ← parse
  setContext fun c => { c with
    assignable := c.assignable && before.assignable
    bindable := c.bindable && before.bindable
    coverInitializer := before.coverInitializer <|> c.coverInitializer }
  return made

def plain : Parse Unit := setContext fun c => { c with assignable := false, bindable := false }

/-- The expression read is a target but no parameter. -/
def target : Parse Unit := setContext fun c => { c with assignable := true, bindable := false }

/-- The name that the token ahead begins a declaration of a function with, `async function`. -/
def seesAsyncFunction : Parse Bool := do
  if ← seesName "async" then
    let line := (← get).cursor.line
    let token ← afterAhead
    return line == token.line && isKeyword token.lexeme "function"
  else return false

def seesImportCall : Parse Bool := do
  if ← seesKeyword "import" then return isMark (← afterAhead).lexeme "(" else return false

end Parse

/-- The constructs that occur inside themselves, each by its parser. -/
structure Grammar where
  assignment : Parse Node
  unary : Parse Node
  power : Parse Node
  /-- Members and calls of an operand. -/
  operand : Parse Node
  /-- Members of an operand, for `new`. -/
  callee : Parse Node
  primary : Parse Node
  statement : Parse Node
  /-- A statement or declaration. -/
  item : Parse Node
  /-- A binding pattern and the tokens of the names that it binds; with `true` in a `let` or `const`. -/
  pattern : Bool → Parse (Node × List Token)
  element : Parse Node

namespace Grammar

def exhausted : Grammar where
  assignment := throw .exhausted
  unary := throw .exhausted
  power := throw .exhausted
  operand := throw .exhausted
  callee := throw .exhausted
  primary := throw .exhausted
  statement := throw .exhausted
  item := throw .exhausted
  pattern _ := throw .exhausted
  element := throw .exhausted

end Grammar

end ClassMigration.Script
