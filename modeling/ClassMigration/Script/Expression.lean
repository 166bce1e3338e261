import ClassMigration.Script.Class
import ClassMigration.Script.Element

/-! Expressions, from operands to assignments and arrow functions. -/
namespace ClassMigration.Script.Expression

open Parse

variable (g : Grammar)

def parametersOf (nodes : List Node) : Node :=
  .branch (.arrowParameters false) [.list (nodes.map Node.asPattern)]

def arrowAhead : Parse Unit := do unless ← sees "=>" do expect "=>"

/-- What follows the first of several expressions in parentheses: more expressions, or the end of a
parameter list, by a comma before the closing parenthesis or by a rest parameter. -/
def moreParenthesized (first : Node) : Parse (List Node ⊕ Node) :=
  loop [] fun more => do
    if !(← sees ",") then return .inr (.inl more)
    discard next
    if ← sees ")" then
      discard next
      return .inr (.inr (parametersOf (first :: more)))
    else if ← sees "..." then
      unless (← context).bindable do unexpectedAhead
      let (node, _) ← Binding.restParameter g
      expect ")"
      arrowAhead
      setContext fun c => { c with bindable := false }
      return .inr (.inr (parametersOf (first :: more ++ [node])))
    else return .inl (more ++ [← inherited g.assignment])

/-- The end of expressions in parentheses. Before an arrow they are its parameters. -/
def closeParenthesis (first : Node) (more : List Node) : Parse Node := do
  expect ")"
  let made ←
    if ← sees "=>" then
      unless (← context).bindable do unexpectedAhead
      pure (parametersOf (first :: more))
    else pure (if more.isEmpty then first else .branch .sequence [.list (first :: more)])
  setContext fun c => { c with bindable := false }
  return made

def parenthesized : Parse Node := do
  expect "("
  if ← sees ")" then
    discard next
    arrowAhead
    return parametersOf []
  if ← sees "..." then
    let (node, _) ← Binding.restParameter g
    expect ")"
    arrowAhead
    return parametersOf [node]
  setContext fun c => { c with bindable := true }
  let first ← inherited g.assignment
  if ← sees "," then setContext fun c => { c with assignable := false }
  match ← moreParenthesized g first with
  | .inr made => return made
  | .inl more => closeParenthesis first more

def plainLiteral : Parse Node := do
  let token ← ahead
  if token.lexeme.isOctal then failAt token .octal
  plain
  let start ← here
  discard next
  match token.lexeme with
  | .string value written _ => return .string value written (← spanFrom start)
  | _ => return .leaf .literal

def primary : Parse Node := do
  let token ← ahead
  match token.lexeme with
  | .identifier name =>
    if name == "await".codePoints then unexpected token
    if ← seesAsyncFunction then Function.functionExpression g
    else
      discard next
      return .name name
  | .number .. | .string .. | .boolean _ | .null => plainLiteral
  | .chunk .. => Literal.templateOperand g
  | .punctuator ['<'] => Element.root g
  | .punctuator ['('] =>
    setContext fun c => { c with bindable := false }
    inherited (parenthesized g)
  | .punctuator ['['] => inherited (Literal.array g)
  | .punctuator ['\x7b'] => inherited (Literal.object g)
  | .punctuator mark =>
    if mark == [.char '/'] || mark == [.char '/', .char '='] then
      plain
      nextRegExp
      return .leaf .literal
    else unexpected (← next)
  | .keyword _ =>
    plain
    if ← seesKeyword "function" then Function.functionExpression g
    else if ← seesKeyword "this" then
      discard next
      return .leaf .thisExpression
    else if ← seesKeyword "class" then Class.classExpression g
    else if ← seesImportCall then
      discard next
      return .leaf .importCallee
    else unexpected (← next)
  | _ => unexpected (← next)

def word : Parse Node := do
  let token ← next
  if token.lexeme.isWord then return .name token.lexeme.text else unexpected token

/-- Arguments in parentheses, each read by `one`; a comma may follow the last. -/
def argumentsOf (one : Parse Node) : Parse (List Node) := do
  expect "("
  let made ← commaUntil ")" do
    if ← sees "..." then Literal.spread g else isolated one
  expect ")"
  return made

def arguments : Parse (List Node) := argumentsOf g g.assignment

/-- Arguments that may turn out to be the parameters of an asynchronous arrow function. -/
def asyncArguments : Parse (List Node) := argumentsOf g do
  let node ← g.assignment
  setContext fun c => { c with coverInitializer := none }
  return node

def newExpression : Parse Node := do
  discard next
  if ← sees "." then
    discard next
    if (← seesName "target") && (← context).inFunction then
      return .branch .metaProperty [.name "new".codePoints, ← word]
    else unexpectedAhead
  else if ← seesKeyword "import" then unexpectedAhead
  else
    let callee ← isolated g.callee
    let given ← if ← sees "(" then arguments g else pure []
    plain
    return .branch .newExpression [callee, .list given]

/-- The operand with which members begin. -/
def head : Parse Node := do
  inherited (if ← seesKeyword "new" then newExpression g else g.primary)

def opensTemplate : Parse Bool := do
  match (← ahead).lexeme with
  | .chunk _ true _ => return true
  | _ => return false

/-- One member access or template after an operand that begins at `start`; none if neither follows. -/
def access? (start : Nat) (node : Node) : Parse (Option Node) := do
  if ← sees "." then
    target
    expect "."
    let property ← word
    return some (.member node property false (← spanFrom start))
  else if ← sees "[" then
    target
    expect "["
    let property ← isolated (Function.expression g)
    expect "]"
    return some (.member node property true (← spanFrom start))
  else if ← opensTemplate then
    return some (.branch .taggedTemplate [node, ← Literal.template g])
  else return none

/-- `super` inside a function, before one of the given punctuators. -/
def superReference (followers : List String) : Parse Node := do
  discard next
  unless ← seesAny followers do unexpectedAhead
  return .leaf .superReference

def seesSuper : Parse Bool := return (← seesKeyword "super") && (← context).inFunction

def operand : Parse Node := do
  let first ← ahead
  let start ← here
  let maybeAsync ← seesName "async"
  let allowIn := (← context).allowIn
  setContext fun c => { c with allowIn := true }
  let node ← if ← seesSuper then superReference ["(", ".", "["] else head g
  let node ← loop node fun node => do
    if ← sees "(" then
      let asyncArrow := maybeAsync && first.line == (← ahead).line
      plain
      let given ← if asyncArrow then asyncArguments g else arguments g
      if node.isKind .importCallee && given.length != 1 then failHere .misplaced
      if asyncArrow && (← sees "=>") then
        return .inl (.branch (.arrowParameters true) [.list (given.map Node.asPattern)])
      else return .inl (.branch .call [node, .list given])
    else match ← access? g start node with
      | some node => return .inl node
      | none => return .inr node
  setContext fun c => { c with allowIn }
  return node

def callee : Parse Node := do
  let start ← here
  let node ← if ← seesSuper then superReference [".", "["] else head g
  loop node fun node => do
    match ← access? g start node with
    | some node => return .inl node
    | none => return .inr node

def checkOperand (before : Bool) (node : Node) : Parse Unit := do
  if (node.name?.map isRestricted).getD false then failHere (.restrictedOperand before)
  unless (← context).assignable do failHere .assignmentTarget

def update : Parse Node := do
  if ← seesAny ["++", "--"] then
    discard next
    let node ← inherited g.unary
    checkOperand true node
    plain
    return .branch .update [node]
  else
    let node ← inherited g.operand
    if !(← newlineAhead) && (← seesAny ["++", "--"]) then
      checkOperand false node
      plain
      discard next
      return .branch .update [node]
    else return node

def unary : Parse Node := do
  if (← seesAny ["+", "-", "~", "!"]) || (← seesAnyKeyword ["delete", "void", "typeof"]) then
    let operator ← next
    let node ← inherited g.unary
    if isKeyword operator.lexeme "delete" && node.name?.isSome then failHere .deletedName
    plain
    return .branch .unary [node]
  else if (← context).await && (← seesName "await") then
    discard next
    return .branch .awaitExpression [← g.unary]
  else update g

def power : Parse Node := do
  let node ← inherited g.unary
  if !node.isKind .unary && (← sees "**") then
    discard next
    plain
    return .branch .binary [node, ← isolated g.power]
  else return node

/-- How tightly an operator binds; none for tokens that are no binary operator. -/
def precedence? (allowIn : Bool) : Lexeme → Option Nat
  | .punctuator mark =>
    ([("||", 1), ("&&", 2), ("|", 3), ("^", 4), ("&", 5), ("==", 6), ("!=", 6), ("===", 6),
      ("!==", 6), ("<", 7), (">", 7), ("<=", 7), (">=", 7), ("<<", 8), (">>", 8), (">>>", 8),
      ("+", 9), ("-", 9), ("*", 11), ("/", 11), ("%", 11)].find? (·.1.codePoints == mark)).map
        Prod.snd
  | .keyword word =>
    if word == "instanceof".codePoints || (allowIn && word == "in".codePoints) then some 7 else none
  | _ => none

/-- An operator's precedence and whether it is a logical one. -/
abbrev Operator := Nat × Bool

def joined (operator : Operator) (left right : Node) : Node :=
  .branch (if operator.2 then .logical else .binary) [left, right]

/-- Takes operands off the stack, whose top is `right`, as long as their operators bind at least as
tightly as `level`. -/
def reduced (level : Nat) (right : Node) : List (Node × Operator) → Node × List (Node × Operator)
  | [] => (right, [])
  | (left, operator) :: stack =>
    if level ≤ operator.1 then reduced level (joined operator left right) stack
    else (right, (left, operator) :: stack)

/-- The tree of operands with operators between them; equal operators join from the left. -/
def climbed : List (Node × Operator) → Node → List (Operator × Node) → Node
  | stack, top, [] => (reduced 0 top stack).1
  | stack, top, (operator, right) :: more =>
    let (left, stack) := reduced operator.1 top stack
    climbed ((left, operator) :: stack) right more

def binary : Parse Node := do
  let first ← inherited g.power
  let operator? : Parse (Option Operator) := do
    let lexeme := (← ahead).lexeme
    let logical := isMark lexeme "||" || isMark lexeme "&&"
    return (precedence? (← context).allowIn lexeme).map (·, logical)
  let more ← loop [] fun more => do
    match ← operator? with
    | none => return .inr more
    | some operator =>
      discard next
      if more.isEmpty then plain
      return .inl (more ++ [(operator, ← isolated g.power)])
  return climbed [] first more

def conditional : Parse Node := do
  let test ← inherited (binary g)
  if ← sees "?" then
    discard next
    let allowIn := (← context).allowIn
    setContext fun c => { c with allowIn := true }
    let consequent ← isolated g.assignment
    setContext fun c => { c with allowIn }
    expect ":"
    let alternate ← isolated g.assignment
    plain
    return .branch .conditional [test, consequent, alternate]
  else return test

/-- The token ahead can begin an expression, as far as `yield` cares. -/
def beginsExpression : Lexeme → Bool
  | .punctuator mark =>
    ["[", "(", "\x7b", "+", "-", "!", "~", "++", "--", "/", "/=", "<"].any (·.codePoints == mark)
  | .keyword word =>
    ["class", "delete", "function", "let", "new", "super", "this", "typeof", "void",
      "yield"].any (·.codePoints == word)
  | _ => true

def yieldExpression : Parse Node := do
  discard next
  let operand ←
    if ← newlineAhead then pure []
    else Function.withYield false do
      if ← sees "*" then
        discard next
        pure [← g.assignment]
      else if beginsExpression (← ahead).lexeme then pure [← g.assignment]
      else pure []
  return .branch .yieldExpression operand

mutual

def boundNames : Node → List Text
  | .name id => [id]
  | .branch .restElement [node] => boundNames node
  | .branch .assignmentPattern [node, _] => boundNames node
  | .branch .arrayPattern [.list nodes] => boundNamesOf nodes
  | .branch .objectPattern [.list nodes] => boundNamesOfProperties nodes
  | _ => []

def boundNamesOf : List Node → List Text
  | [] => []
  | node :: more => boundNames node ++ boundNamesOf more

def boundNamesOfProperties : List Node → List Text
  | [] => []
  | .branch .property [_, value] :: more => boundNames value ++ boundNamesOfProperties more
  | node :: more => boundNames node ++ boundNamesOfProperties more

end

/-- A default value that is a bare `yield` counts as a name. -/
def withoutYield : Node → Node
  | .branch .assignmentPattern [left, .branch .yieldExpression []] =>
    .branch .assignmentPattern [left, .name "yield".codePoints]
  | node => node

def yieldsDefault : Node → Bool
  | .branch .assignmentPattern [_, .branch .yieldExpression (_ :: _)] => true
  | _ => false

/-- The parameters of an arrow function that an expression stands for, if it does. -/
def arrowParameters? : Node → Option (List Node × Bool)
  | .name id => some ([.name id], false)
  | .branch (.arrowParameters asynchronous) [.list nodes] => some (nodes, asynchronous)
  | _ => none

/-- Checks the parameters of an arrow function. A repeated name fails at once, a restricted one after
the body. -/
def checkedParameters (nodes : List Node) (asynchronous : Bool) : Parse Parameters := do
  for node in nodes do
    if yieldsDefault node then unexpectedAhead
    if asynchronous && node.name? == some "await".codePoints then unexpectedAhead
  let nodes := nodes.map withoutYield
  if nodes.any (·.isKind .yieldExpression) then unexpectedAhead
  let p := nodes.foldl (fun p node =>
    ((boundNames node).foldl (fun p name => p.bind name 0) p).add node) Parameters.none
  if let some (_, .duplicateParameter) := p.fault then failAfter .duplicateParameter
  return p

/-- An arrow function after its parameters. -/
def arrowFunction (nodes : List Node) (asynchronous : Bool) : Parse Node := do
  let p ← checkedParameters nodes asynchronous
  if ← newlineAhead then unexpectedAhead
  setContext fun c => { c with coverInitializer := none }
  let before ← context
  setContext fun c => { c with allowStrictDirective := p.simple }
  let body ← Function.within asynchronous true do
    expect "=>"
    if ← sees "\x7b" then
      let allowIn := (← context).allowIn
      setContext fun c => { c with allowIn := true }
      let body ← Function.body g
      setContext fun c => { c with allowIn }
      pure body
    else isolated g.assignment
  if let some (_, cause) := p.fault then failAfter cause
  setContext fun c => { c with allowStrictDirective := before.allowStrictDirective }
  return .branch .arrowFunction [.list p.nodes, body]

def assignmentMarks : List String :=
  ["=", "*=", "**=", "/=", "%=", "+=", "-=", "<<=", ">>=", ">>>=", "&=", "^=", "|="]

/-- An assignment after its left side, whose first token is `first`. -/
def assignmentTo (first : Token) (node : Node) : Parse Node := do
  unless (← context).assignable do failHere .assignmentTarget
  if let some name := node.name? then
    if isRestricted name then failAt first .restrictedAssignment
    if strictWords.contains name then failAt first .strictWord
  let left ←
    if ← sees "=" then pure node.asPattern
    else
      plain
      pure node
  discard next
  let right ← isolated g.assignment
  setContext fun c => { c with coverInitializer := none }
  return .branch .assignment [left, right]

def assignment : Parse Node := do
  if !(← context).allowYield && (← seesKeyword "yield") then yieldExpression g
  else
    let first ← ahead
    let node ← conditional g
    let following ← ahead
    let singleName := match following.lexeme with
      | .identifier _ => true
      | lexeme => isKeyword lexeme "yield"
    let node ←
      if isName first.lexeme "async" && first.line == following.line && singleName then do
        let parameter ← g.primary
        pure (.branch (.arrowParameters true) [.list [parameter.asPattern]])
      else pure node
    let placeholder := match node with
      | .branch (.arrowParameters _) _ => true
      | _ => false
    if placeholder || (← sees "=>") then
      plain
      match arrowParameters? node with
      | some (nodes, asynchronous) => arrowFunction g nodes asynchronous
      | none => return node
    else if ← seesAny assignmentMarks then assignmentTo g first node
    else return node

end ClassMigration.Script.Expression
