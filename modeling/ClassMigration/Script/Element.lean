import ClassMigration.Script.Literal
import ClassMigration.Text.Entity

/-! Elements: tags with attributes and children. Their tokens differ from those of the script around
them, so the token ahead is given back before an element and read anew after it. -/
namespace ClassMigration.Script.Element

open Parse

inductive Reference where
  /-- A name, or nothing yet. -/
  | named
  | decimal
  | hex
  deriving DecidableEq

/-- A character reference after its `&`, up to its semicolon: its text, whether one may stand so, and
the rest. It stops early before the closing quote and behind a character that does not fit. -/
def scanReference (quote : CodePoint) : Nat → Reference → Text → Text × Reference × Bool
  | _, kind, [] => ([], kind, false)
  | seen, kind, c :: rest =>
    if c == quote then ([], kind, false)
    else if c == ';' then ([c], kind, true)
    else
      let kind := if seen == 0 && c == '#' then .decimal
        else if seen == 1 && kind == .decimal && c == 'x' then .hex else kind
      let fits := seen == 0 || (seen == 1 && kind == .hex) || kind == .named ||
        (kind == .decimal && c.isDigit) || (kind == .hex && Text.isHexDigit c)
      if fits then
        let (more, kind, terminated) := scanReference quote (seen + 1) kind rest
        (c :: more, kind, terminated)
      else ([c], kind, false)

def referred (code : Nat) : Except Fault CodePoint :=
  if code ≤ 0x10FFFF then .ok (CodePoint.ofNat code)
  else if code < 0x80000000 then .error .codePoint
  else .error .codePointSize

/-- The meaning of a character reference after its `&`, and its length. One that is not well formed
stands for itself. -/
def reference (quote : CodePoint) (rest : Text) : Except Fault (Text × Nat) := do
  let (written, kind, terminated) := scanReference quote 0 .named rest
  let inner := written.dropLast
  let asWritten := (.char '&' :: written, written.length)
  if !terminated then return asWritten
  match kind with
  | .decimal =>
    if inner.length ≤ 1 then return asWritten
    else return ([← referred (Text.valueIn 10 (inner.drop 1))], written.length)
  | .hex =>
    if inner.length ≤ 2 then return asWritten
    else return ([← referred (Text.valueIn 16 (inner.drop 2))], written.length)
  | .named =>
    match Entity.named? inner with
    | some c => return ([c], written.length)
    | none => return asWritten

/-- The meaning of an attribute's string and its length with the closing quote, which may be missing at
the end of input. -/
def attributeBody (quote : CodePoint) : Nat → Text → Except Fault (Text × Nat)
  | 0, _ => .error .exhausted
  | _ + 1, [] => .ok ([], 0)
  | fuel + 1, c :: rest =>
    if c == quote then .ok ([], 1)
    else if c == '&' then do
      let (value, length) ← reference quote rest
      let (more, count) ← attributeBody quote fuel (rest.drop length)
      return (value ++ more, count + length + 1)
    else do
      let (more, count) ← attributeBody quote fuel rest
      return (c :: more, count + 1)

def isTagMark (c : CodePoint) : Bool := "<>/:=\x7b\x7d".codePoints.contains c

def continuesTagName (c : CodePoint) : Bool := c == '-' || (continuesName c && c != '\\')

/-- The token of a tag at the cursor, where no blank stands. An attribute's string counts no lines. -/
def tagToken (fuel : Nat) (braces : List Brace) (c : Cursor) :
    Except Fault (Token × List Brace × Cursor) :=
  let made (lexeme : Lexeme) (length : Nat) : Except Fault (Token × List Brace × Cursor) :=
    let stop := c.skip length
    .ok (⟨lexeme, c.index, stop.index, stop.line⟩, braces, stop)
  match c.rest with
  | [] => Lexer.token fuel braces c
  | char :: rest =>
    if isTagMark char then made (.punctuator [char]) 1
    else if char == '\'' || char == '"' then do
      let (value, count) ← attributeBody char fuel rest
      made (.string value (c.rest.take (count + 1)) false) (count + 1)
    else if char == '.' then
      if Text.startsWith rest [.char '.', .char '.'] then made (.punctuator [.char '.', .char '.', .char '.']) 3
      else made (.punctuator [.char '.']) 1
    else if char == '\x60' then made (.chunk [] false false) 0
    else if beginsName char && char != '\\' then
      let name := char :: rest.takeWhile continuesTagName
      made (.tagName name) name.length
    else Lexer.token fuel braces c

def giveBack : Parse Unit := modify fun s => { s with cursor := s.start }

def skip : Parse Unit := do
  let s ← get
  set { s with cursor := ← s.cursor.toToken s.bound false }

def nextTag : Parse Token := do
  skip
  let s ← get
  let (token, braces, cursor) ← tagToken s.bound s.braces s.cursor
  set { s with cursor, braces, start := s.cursor, last := mark cursor }
  return token

/-- The next token of a tag, which stays unread; braces read on the way count. -/
def peekTag : Parse Lexeme := do
  let s ← get
  let start ← s.cursor.toToken s.bound false
  let (token, braces, _) ← tagToken s.bound s.braces start
  set { s with braces }
  return token.lexeme

def seesTag (symbol : String) : Parse Bool := return isMark (← peekTag) symbol

def expectTag (symbol : String) : Parse Unit := do
  let token ← nextTag
  unless isMark token.lexeme symbol do unexpected token

/-- Goes on with the script's own tokens. -/
def leave : Parse Unit := discard next

/-- Returns to a tag after an expression, at its closing brace. -/
def reenter : Parse Unit := do
  giveBack
  expectTag "\x7d"

def tagName : Parse Node := do
  let token ← nextTag
  match token.lexeme with
  | .tagName name => return .branch .jsxName [.name name]
  | _ => unexpected token

/-- The name in an attribute, with an optional namespace. -/
def attributeName : Parse Node := do
  let name ← tagName
  if ← seesTag ":" then
    expectTag ":"
    return .branch .jsxNamespacedName [name, ← tagName]
  else return name

/-- The name of an element: plain, with a namespace, or a member of another. -/
def elementName : Parse Node := do
  let name ← tagName
  if ← seesTag ":" then
    expectTag ":"
    return .branch .jsxNamespacedName [name, ← tagName]
  else loop name fun name => do
    if ← seesTag "." then
      expectTag "."
      return .inl (.branch .jsxMemberName [name, ← tagName])
    else return .inr name

def qualified : Node → Text
  | .branch .jsxName [.name id] => id
  | .branch .jsxNamespacedName [space, name] => qualified space ++ .char ':' :: qualified name
  | .branch .jsxMemberName [object, name] => qualified object ++ .char '.' :: qualified name
  | _ => []

variable (g : Grammar)

def stringValue : Parse Node := do
  skip
  let start := (← get).cursor.index
  let token ← nextTag
  match token.lexeme with
  | .string value written _ => return .string value written (← spanFrom start)
  | _ => unexpected token

def expressionValue : Parse Node := do
  expectTag "\x7b"
  leave
  if ← sees "\x7d" then failHere .emptyAttribute
  let node ← g.assignment
  reenter
  return .branch .jsxContainer [node]

def attributeValue : Parse Node := do
  if ← seesTag "\x7b" then expressionValue g
  else if ← seesTag "<" then g.element
  else stringValue

def plainAttribute : Parse Node := do
  let name ← attributeName
  if ← seesTag "=" then
    expectTag "="
    return .branch .jsxAttribute [name, ← attributeValue g]
  else return .branch .jsxAttribute [name]

def spreadAttribute : Parse Node := do
  expectTag "\x7b"
  expectTag "..."
  leave
  let node ← g.assignment
  reenter
  return .branch .jsxSpreadAttribute [node]

/-- An opening tag after its `<`, and whether it closes itself. -/
def openingRest : Parse (Node × Bool) := do
  let name ← elementName
  let attributes ← whilst (return !(← seesTag "/") && !(← seesTag ">")) do
    if ← seesTag "\x7b" then spreadAttribute g else plainAttribute g
  let closed ← seesTag "/"
  if closed then expectTag "/"
  expectTag ">"
  return (.branch .jsxOpening [name, .list attributes], closed)

def textEnd : Text → Nat → Nat → Cursor
  | [], index, line => ⟨[], index, line⟩
  | '\r' :: '\n' :: rest, index, line => textEnd rest (index + 2) (line + 1)
  | c :: rest, index, line =>
    if c == '\x7b' || c == '<' then ⟨c :: rest, index, line⟩
    else textEnd rest (index + 1) (if endsLine c then line + 1 else line)

def text : Parse Bool := do
  let s ← get
  let stop := textEnd s.cursor.rest s.cursor.index s.cursor.line
  set { s with cursor := stop, start := s.cursor, last := mark stop }
  return s.cursor.index < stop.index

/-- An expression among the children, or a comment in braces. -/
def container : Parse Node := do
  expectTag "\x7b"
  if ← seesTag "\x7d" then
    skip
    modify fun s => { s with last := mark s.cursor }
    expectTag "\x7d"
    return .branch .jsxContainer [.leaf .jsxEmpty]
  else
    leave
    let node ← g.assignment
    reenter
    return .branch .jsxContainer [node]

def children : Parse (List Node) :=
  loop [] fun made => do
    if (← get).cursor.atEnd then return .inr made
    let made := if ← text then made ++ [.leaf .jsxText] else made
    if (← get).cursor.rest.head? == some (.char '\x7b') then return .inl (made ++ [← container g])
    else return .inr made

/-- An element whose closing tag has not been read. -/
structure Pending where
  opening : Node
  children : List Node

def Pending.name (p : Pending) : Text :=
  match p.opening with
  | .branch .jsxOpening (name :: _) => qualified name
  | _ => []

def Pending.close (p : Pending) (closing : List Node) : Node :=
  .branch .jsxElement ([p.opening, .list p.children] ++ closing)

/-- The children and the closing tag of the element `open`. At the end of input directly after a tag
the innermost element that is not closed gives its children to the outermost. -/
def rest (opening : Node) : Parse (List Node × List Node) :=
  loop (Pending.mk opening [], []) fun ((current, outer) : Pending × List Pending) => do
    if (← get).cursor.atEnd then return .inr (current.children, [])
    let current := { current with children := current.children ++ (← children g) }
    expectTag "<"
    if ← seesTag "/" then
      expectTag "/"
      let name ← elementName
      expectTag ">"
      unless qualified name == current.name do failHere (.closingTag current.name)
      let closing := [Node.branch .jsxClosing [name]]
      match outer with
      | [] => return .inr (current.children, closing)
      | parent :: outer =>
        return .inl
          ({ parent with children := parent.children ++ [current.close closing] }, outer)
    else
      let (opening, closed) ← openingRest g
      if closed then
        let child := Pending.close ⟨opening, []⟩ []
        return .inl ({ current with children := current.children ++ [child] }, outer)
      else return .inl (⟨opening, []⟩, current :: outer)

def element : Parse Node := do
  expectTag "<"
  let (opening, closed) ← openingRest g
  if closed then return Pending.close ⟨opening, []⟩ []
  let (children, closing) ← rest g opening
  return .branch .jsxElement ([opening, .list children] ++ closing)

def root : Parse Node := do
  giveBack
  let node ← g.element
  leave
  return node

end ClassMigration.Script.Element
