import ClassMigration.Script.Parse

/-! Binding patterns of declarations, parameters and `catch`. Beside its tree a pattern gives the tokens
of the names that it binds. -/
namespace ClassMigration.Script.Binding

open Parse

variable (g : Grammar)

def identifier : Parse Node := do
  let token ← next
  match token.lexeme with
  | .identifier name =>
    if name == "await".codePoints then unexpected token else return .name name
  | .keyword word =>
    if strictWords.contains word then failAt token .strictWord else unexpected token
  | _ => unexpected token

/-- The rest of an array or, with its own checks, of a parameter list. -/
def restElement (lexical : Bool) : Parse (Node × List Token) := do
  expect "..."
  let (node, names) ← g.pattern lexical
  return (.branch .restElement [node], names)

def withDefault (lexical : Bool) : Parse (Node × List Token) := do
  let (node, names) ← g.pattern lexical
  if ← sees "=" then
    discard next
    let before := (← context).allowYield
    setContext fun c => { c with allowYield := true }
    let value ← isolated g.assignment
    setContext fun c => { c with allowYield := before }
    return (.branch .assignmentPattern [node, value], names)
  else return (node, names)

/-- One element of an array pattern; none for a hole. The rest element is the last. -/
def arrayElement (lexical : Bool) : Parse (Option (Node × List Token) × Bool) := do
  if ← sees "," then
    discard next
    return (none, false)
  else if ← sees "..." then return (some (← restElement g lexical), true)
  else
    let made ← withDefault g lexical
    unless ← sees "]" do expect ","
    return (some made, false)

def array (lexical : Bool) : Parse (Node × List Token) := do
  expect "["
  let (nodes, names) ← loop ([], []) fun (nodes, names) => do
    if ← sees "]" then return .inr (nodes, names)
    match ← arrayElement g lexical with
    | (none, _) => return .inl (nodes, names)
    | (some (node, more), final) =>
      let made := (nodes ++ [node], names ++ more)
      return if final then .inr made else .inl made
  expect "]"
  return (.branch .arrayPattern [.list nodes], names)

/-- The key of a property, as a tree. Brackets around it make it computed. -/
def key : Parse Node := do
  let start ← here
  let token ← next
  match token.lexeme with
  | .string value written octal =>
    if octal then failAt token .octal
    return .string value written (← spanFrom start)
  | .number _ octal =>
    if octal then failAt token .octal
    return .leaf .literal
  | .punctuator ['['] =>
    let made ← isolated g.assignment
    expect "]"
    return made
  | lexeme => if lexeme.isWord then return .name lexeme.text else unexpected token

def property (lexical : Bool) : Parse (Node × List Token) := do
  let token ← ahead
  match token.lexeme with
  | .identifier name =>
    let key ← identifier
    if ← sees "=" then
      discard next
      let value ← g.assignment
      return (.branch .property [key, .branch .assignmentPattern [.name name, value]], [token])
    else if ← sees ":" then
      expect ":"
      let (value, names) ← withDefault g lexical
      return (.branch .property [key, value], names)
    else return (.branch .property [key, .name name], [token])
  | _ =>
    let key ← key g
    expect ":"
    let (value, names) ← withDefault g lexical
    return (.branch .property [key, value], names)

def restProperty : Parse (Node × List Token) := do
  expect "..."
  let (node, names) ← g.pattern false
  if ← sees "=" then failAfter .restDefault
  unless ← sees "\x7d" do failAfter .misplaced
  return (.branch .restElement [node], names)

def object (lexical : Bool) : Parse (Node × List Token) := do
  expect "\x7b"
  let made ← commaUntil "\x7d" do
    if ← sees "..." then restProperty g else property g lexical
  expect "\x7d"
  return (.branch .objectPattern [.list (made.map Prod.fst)], made.flatMap Prod.snd)

/-- A pattern. No `let` or `const` binds the name `let`. -/
def pattern (lexical : Bool) : Parse (Node × List Token) := do
  if ← sees "[" then array g lexical
  else if ← sees "\x7b" then object g lexical
  else
    let token ← ahead
    if lexical && isKeyword token.lexeme "let" then failAt token .boundLet
    let node ← identifier
    return (node, [token])

/-- The rest parameter, which has no default and is the last. -/
def restParameter : Parse (Node × List Token) := do
  expect "..."
  let (node, names) ← g.pattern false
  if ← sees "=" then failAfter .restDefault
  unless ← sees ")" do failAfter .restNotLast
  return (.branch .restElement [node], names)

end ClassMigration.Script.Binding
