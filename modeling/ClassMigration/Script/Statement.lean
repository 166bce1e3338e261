import ClassMigration.Script.Expression

/-! Statements and the declarations among them. -/
namespace ClassMigration.Script.Statement

open Parse

variable (g : Grammar)

def expression : Parse Node := Function.expression g

def expressionStatement : Parse Node := do
  let node ← expression g
  semicolon
  return .branch .expressionStatement [node]

def block : Parse Node := do
  expect "\x7b"
  let items ← itemsUntil "\x7d" g.item
  expect "\x7d"
  return .branch .block [.list items]

/-- What a loop head asks of a variable declarator. -/
structure Declared where
  node : Node
  named : Bool
  initialized : Bool

def Declared.make (pattern : Node) (initializer : Option Node) : Declared where
  node := .branch .variableDeclarator (pattern :: initializer.toList)
  named := pattern.name?.isSome
  initialized := initializer.isSome

def checkVariable (pattern : Node) : Parse Unit := do
  if (pattern.name?.map isRestricted).getD false then failHere .restrictedVariable

def initializer : Parse (Option Node) := return some (← isolated g.assignment)

def variableDeclarator (inFor : Bool) : Parse Declared := do
  let (pattern, _) ← g.pattern false
  checkVariable pattern
  let value ←
    if ← sees "=" then
      discard next
      initializer g
    else
      if pattern.name?.isNone && !inFor then expect "="
      pure none
  return .make pattern value

def lexicalDeclarator (constant inFor : Bool) : Parse Declared := do
  let (pattern, _) ← g.pattern true
  checkVariable pattern
  let value ←
    if constant then
      if (← seesKeyword "in") || (← seesName "of") then pure none
      else if ← sees "=" then
        discard next
        initializer g
      else failAfter .missingInitializer
    else if (!inFor && pattern.name?.isNone) || (← sees "=") then
      expect "="
      initializer g
    else pure none
  return .make pattern value

def declarators (one : Parse Declared) : Parse (List Declared) := do
  let first ← one
  let more ← whilst (sees ",") do
    discard next
    one
  return first :: more

def declaration (declared : List Declared) : Node :=
  .branch .variableDeclaration [.list (declared.map (·.node))]

def variableStatement : Parse Node := do
  discard next
  let declared ← declarators (variableDeclarator g false)
  semicolon
  return declaration declared

/-- The declarators of a `let` or `const`, whose word is ahead. -/
def lexicalDeclarators (inFor : Bool) : Parse (List Declared) := do
  let word ← next
  declarators (lexicalDeclarator g (isKeyword word.lexeme "const") inFor)

def lexicalDeclaration : Parse Node := do
  let declared ← lexicalDeclarators g false
  semicolon
  return declaration declared

/-- The token after `let` makes it a declaration. -/
def declaresLexically : Parse Bool := do
  let token ← afterAhead
  return match token.lexeme with
    | .identifier _ => true
    | .punctuator mark => mark == [.char '['] || mark == [.char '\x7b']
    | lexeme => isKeyword lexeme "let" || isKeyword lexeme "yield"

def clause : Parse Node := do
  if ← seesKeyword "function" then failHere .functionPlacement
  g.statement

def ifStatement : Parse Node := do
  discard next
  expect "("
  let test ← expression g
  expect ")"
  let consequent ← clause g
  let alternate ←
    if ← seesKeyword "else" then
      discard next
      pure [← clause g]
    else pure []
  return .branch .ifStatement ([test, consequent] ++ alternate)

def inLoop (step : Parse α) : Parse α := do
  let before := (← context).inLoop
  setContext fun c => { c with inLoop := true }
  let made ← step
  setContext fun c => { c with inLoop := before }
  return made

def doWhile : Parse Node := do
  discard next
  let body ← inLoop g.statement
  expectKeyword "while"
  expect "("
  let test ← expression g
  expect ")"
  if ← sees ";" then discard next
  return .branch .doWhile [body, test]

def whileLoop : Parse Node := do
  discard next
  expect "("
  let test ← expression g
  expect ")"
  let body ← inLoop g.statement
  return .branch .whileLoop [test, body]

/-- The head of a `for` loop: with three parts, or over a right side. -/
inductive Head where
  | counted (initial : List Node)
  | overKeys (left right : Node)
  | overValues (left right : Node)

def withoutIn (step : Parse α) : Parse α := do
  let before := (← context).allowIn
  setContext fun c => { c with allowIn := false }
  let made ← step
  setContext fun c => { c with allowIn := before }
  return made

def keysOf (left : Node) : Parse Head := do
  discard next
  return .overKeys left (← expression g)

def valuesOf (left : Node) : Parse Head := do
  discard next
  return .overValues left (← g.assignment)

def variableHead : Parse Head := do
  discard next
  let declared ← withoutIn (declarators (variableDeclarator g true))
  let left := declaration declared
  match declared with
  | [one] =>
    if ← seesKeyword "in" then
      if one.initialized then failHere .forInInitializer
      keysOf g left
    else if !one.initialized && (← seesName "of") then valuesOf g left
    else
      expect ";"
      return .counted [left]
  | _ =>
    expect ";"
    return .counted [left]

def lexicalHead : Parse Head := do
  let declared ← withoutIn (lexicalDeclarators g true)
  let left := declaration declared
  let bare := match declared with
    | [one] => !one.initialized
    | _ => false
  if bare && (← seesKeyword "in") then keysOf g left
  else if bare && (← seesName "of") then valuesOf g left
  else
    semicolon
    return .counted [left]

def checkLeft (node : Node) (cause : Cause) : Parse Unit := do
  if !(← context).assignable || node.isKind .assignment then failHere cause

def expressionHead : Parse Head := do
  let first ← withoutIn (inherited g.assignment)
  if ← seesKeyword "in" then
    checkLeft first .forInTarget
    keysOf g first.asPattern
  else if ← seesName "of" then
    checkLeft first .forOfTarget
    valuesOf g first.asPattern
  else
    let several ← sees ","
    let more ← whilst (sees ",") do
      discard next
      isolated g.assignment
    expect ";"
    return .counted [if several then .branch .sequence [.list (first :: more)] else first]

def forHead : Parse Head := do
  if ← sees ";" then
    discard next
    return .counted []
  else if ← seesKeyword "var" then variableHead g
  else if ← seesAnyKeyword ["const", "let"] then lexicalHead g
  else expressionHead g

def forLoop : Parse Node := do
  discard next
  expect "("
  let head ← forHead g
  let body : Parse Node := do
    expect ")"
    inLoop (isolated g.statement)
  match head with
  | .overKeys left right => return .branch .forIn [left, right, ← body]
  | .overValues left right => return .branch .forOf [left, right, ← body]
  | .counted initial =>
    let test ← if ← sees ";" then pure [] else pure [← expression g]
    expect ";"
    let step ← if ← sees ")" then pure [] else pure [← expression g]
    return .branch .forLoop (initial ++ test ++ step ++ [← body])

/-- The label that a jump names, if one stands in the same line. -/
def jumpLabel : Parse (List Node) := do
  match (← ahead).lexeme with
  | .identifier _ =>
    if ← newlineAhead then return []
    let node ← Binding.identifier
    if let some name := node.name? then
      unless (← context).labels.contains name do failAfter (.undefinedLabel name)
    return [node]
  | _ => return []

def continueStatement : Parse Node := do
  discard next
  let label ← jumpLabel
  semicolon
  if label.isEmpty && !(← context).inLoop then failAfter .misplacedContinue
  return .branch .continueStatement label

def breakStatement : Parse Node := do
  discard next
  let label ← jumpLabel
  semicolon
  let c ← context
  if label.isEmpty && !c.inLoop && !c.inSwitch then failAfter .misplacedBreak
  return .branch .breakStatement label

def returnStatement : Parse Node := do
  unless (← context).inFunction do failHere .misplacedReturn
  discard next
  let given ← match (← ahead).lexeme with
    | .string .. | .chunk .. => pure true
    | .endOfInput => pure false
    | lexeme => pure (!isMark lexeme ";" && !isMark lexeme "\x7d" && !(← newlineAhead))
  let argument ← if given then pure [← expression g] else pure []
  semicolon
  return .branch .returnStatement argument

/-- A case of a switch, and whether it is the default. -/
def switchCase : Parse (Node × Bool) := do
  let test ←
    if ← seesKeyword "default" then
      discard next
      pure []
    else
      expectKeyword "case"
      pure [← expression g]
  expect ":"
  let items ← whilst (return !(← sees "\x7d") && !(← seesAnyKeyword ["default", "case"])) g.item
  return (.branch .switchCase (test ++ [.list items]), test.isEmpty)

def switchStatement : Parse Node := do
  discard next
  expect "("
  let subject ← expression g
  expect ")"
  let before := (← context).inSwitch
  setContext fun c => { c with inSwitch := true }
  expect "\x7b"
  let (cases, _) ← loop ([], false) fun (cases, hasDefault) => do
    if ← sees "\x7d" then return .inr (cases, hasDefault)
    let (node, isDefault) ← switchCase g
    if isDefault && hasDefault then failAfter .secondDefault
    return .inl (cases ++ [node], hasDefault || isDefault)
  expect "\x7d"
  setContext fun c => { c with inSwitch := before }
  return .branch .switchStatement [subject, .list cases]

/-- A statement that begins with an expression: labelled if that is a name before a colon. -/
def labeled : Parse Node := do
  let node ← expression g
  match node with
  | .name name =>
    if ← sees ":" then
      discard next
      if (← context).labels.contains name then failAfter (.repeatedLabel name)
      setContext fun c => { c with labels := name :: c.labels }
      let body ←
        if ← seesKeyword "class" then unexpectedAhead
        else if ← seesKeyword "function" then
          let token ← ahead
          discard (Function.declaration g false)
          failAt token .functionPlacement
        else g.statement
      setContext fun c => { c with labels := c.labels.erase name }
      return .branch .labeled [node, body]
    else
      semicolon
      return .branch .expressionStatement [node]
  | _ =>
    semicolon
    return .branch .expressionStatement [node]

def throwStatement : Parse Node := do
  discard next
  if ← newlineAhead then failAfter .newlineAfterThrow
  let node ← expression g
  semicolon
  return .branch .throwStatement [node]

/-- The first name that occurs twice. -/
def repeated? : List Text → List Text → Option Text
  | _, [] => none
  | seen, name :: more => if seen.contains name then some name else repeated? (name :: seen) more

def catchClause : Parse Node := do
  discard next
  expect "("
  if ← sees ")" then unexpectedAhead
  let (parameter, names) ← g.pattern false
  if let some name := repeated? [] (names.map (·.lexeme.text)) then
    failHere (.duplicateBinding name)
  if (parameter.name?.map isRestricted).getD false then failHere .restrictedCatch
  expect ")"
  let body ← block g
  return .branch .catchClause [parameter, body]

def tryStatement : Parse Node := do
  discard next
  let body ← block g
  let handler ← if ← seesKeyword "catch" then pure [← catchClause g] else pure []
  let finalizer ←
    if ← seesKeyword "finally" then
      discard next
      pure [← block g]
    else pure []
  if handler.isEmpty && finalizer.isEmpty then failAfter .tryAlone
  return .branch .tryStatement (body :: handler ++ finalizer)

def debuggerStatement : Parse Node := do
  discard next
  semicolon
  return .leaf .debuggerStatement

def emptyStatement : Parse Node := do
  expect ";"
  return .leaf .emptyStatement

def statements : List (String × Parse Node) :=
  [("break", breakStatement), ("continue", continueStatement), ("debugger", debuggerStatement),
    ("do", doWhile g), ("for", forLoop g), ("function", Function.declaration g false),
    ("if", ifStatement g), ("return", returnStatement g), ("switch", switchStatement g),
    ("throw", throwStatement g), ("try", tryStatement g), ("var", variableStatement g),
    ("while", whileLoop g), ("with", failHere .withStatement)]

def statement : Parse Node := do
  match (← ahead).lexeme with
  | .punctuator ['\x7b'] => block g
  | .punctuator [';'] => emptyStatement
  | .identifier _ =>
    if ← seesAsyncFunction then Function.declaration g false else labeled g
  | .keyword word =>
    match (statements g).find? (·.1.codePoints == word) with
    | some (_, read) => read
    | none => expressionStatement g
  | .endOfInput => unexpectedAhead
  | _ => expressionStatement g

end ClassMigration.Script.Statement
