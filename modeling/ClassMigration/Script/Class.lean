import ClassMigration.Script.Literal

/-! Classes and their members. -/
namespace ClassMigration.Script.Class

open Parse

variable (g : Grammar)

/-- What stands before a member's parameters or accessor name. -/
structure Opening where
  /-- The token that tells the member's form. -/
  token : Token
  key : Option Node
  computed : Bool
  static : Bool
  asynchronous : Bool

def opening : Parse Opening := do
  let token ← ahead
  if ← sees "*" then
    discard next
    return ⟨token, none, false, false, false⟩
  let computed ← sees "["
  let key ← Binding.key g
  let (token, key, computed, static) ←
    if key.name? == some "static".codePoints &&
        ((← ahead).lexeme.beginsKey || (← sees "*")) then do
      let token ← ahead
      let computed ← sees "["
      if ← sees "*" then
        discard next
        pure (token, key, computed, true)
      else pure (token, ← Binding.key g, computed, true)
    else pure (token, key, computed, false)
  let following := (← ahead).lexeme.text
  if isName token.lexeme "async" && !(← newlineAhead) &&
      !([[.char ':'], [.char '('], [.char '*']].contains following) then
    let token ← ahead
    let key ← Binding.key g
    if isName token.lexeme "constructor" then failAt token .asyncConstructor
    return ⟨token, some key, computed, static, true⟩
  return ⟨token, some key, computed, static, false⟩

/-- What a member is; only methods may be constructors. -/
inductive Form where
  | accessor
  | method
  | generator
  deriving DecidableEq

/-- The form, key and function of a member, and whether its key is computed. -/
def form (o : Opening) : Parse (Form × Node × Node × Bool) := do
  let keyAhead := (← ahead).lexeme.beginsKey
  let plainMethod : Parse (Form × Node × Node × Bool) := do
    let some key := o.key | unexpectedAhead
    unless ← sees "(" do unexpectedAhead
    let value ← if o.asynchronous then Function.asyncMethod g else Function.method g
    return (.method, key, value, o.computed)
  if isName o.token.lexeme "get" && keyAhead then
    let computed ← sees "["
    let key ← Binding.key g
    setContext fun c => { c with allowYield := false }
    return (.accessor, key, ← Function.getter g, computed)
  else if isName o.token.lexeme "set" && keyAhead then
    let computed ← sees "["
    let key ← Binding.key g
    return (.accessor, key, ← Function.setter g, computed)
  else if isMark o.token.lexeme "*" && keyAhead then
    let computed ← sees "["
    let key ← Binding.key g
    return (.generator, key, ← Function.generatorMethod g, computed)
  else plainMethod

def member (hasConstructor : Bool) : Parse (Node × Bool) := do
  let o ← opening g
  let (form, key, value, computed) ← form g o
  let node := Node.branch .method [key, value]
  if computed then return (node, hasConstructor)
  if o.static && Literal.isKey key "prototype" then failAt o.token .staticPrototype
  if !o.static && Literal.isKey key "constructor" then
    unless form == .method do failAt o.token .specialConstructor
    if hasConstructor then failAt o.token .secondConstructor
    return (node, true)
  return (node, hasConstructor)

def body : Parse Node := do
  expect "\x7b"
  let (members, _) ← loop ([], false) fun (members, hasConstructor) => do
    if ← sees "\x7d" then return .inr (members, hasConstructor)
    if ← sees ";" then
      discard next
      return .inl (members, hasConstructor)
    let (node, hasConstructor) ← member g hasConstructor
    return .inl (members ++ [node], hasConstructor)
  expect "\x7d"
  return .branch .classBody [.list members]

def afterName (kind : Kind) (name : List Node) : Parse Node := do
  let heritage ←
    if ← seesKeyword "extends" then
      discard next
      pure [← isolated g.operand]
    else pure []
  let members ← body g
  return .branch kind (name ++ heritage ++ [members])

def namedAhead : Parse Bool := do
  match (← ahead).lexeme with
  | .identifier _ => return true
  | _ => return false

/-- A class declaration. Only an exported default may go without a name. -/
def declaration (nameless : Bool) : Parse Node := do
  expectKeyword "class"
  let name ← if nameless && !(← namedAhead) then pure [] else pure [← Binding.identifier]
  afterName g .classDeclaration name

def classExpression : Parse Node := do
  expectKeyword "class"
  let name ← if ← namedAhead then pure [← Binding.identifier] else pure []
  afterName g .classExpression name

end ClassMigration.Script.Class
