import ClassMigration.Script.Function

/-! Array, object and template literals. -/
namespace ClassMigration.Script.Literal

open Parse

variable (g : Grammar)

def spread : Parse Node := do
  expect "..."
  return .branch .spreadElement [← inherited g.assignment]

/-- One element of an array literal; none for a hole. -/
def arrayElement : Parse (Option Node) := do
  if ← sees "," then
    discard next
    return none
  else if ← sees "..." then
    let node ← spread g
    unless ← sees "]" do
      plain
      expect ","
    return some node
  else
    let node ← inherited g.assignment
    unless ← sees "]" do expect ","
    return some node

def array : Parse Node := do
  expect "["
  let elements ← itemsUntil "]" (arrayElement g)
  expect "]"
  return .branch .arrayExpression [.list (elements.filterMap id)]

/-- The key is this word, spelled as a name or as a string. -/
def isKey (key : Node) (word : String) : Bool :=
  match key with
  | .name id => id == word.codePoints
  | .string value _ _ => value == word.codePoints
  | _ => false

/-- The key with which a property begins: none before the star of a generator. Beside it, whether it is
computed and whether `async` stood before it. -/
def propertyStart (token : Token) : Parse (Option Node × Bool × Bool) := do
  match token.lexeme with
  | .identifier name =>
    discard next
    let computed ← sees "["
    let asynchronous := name == "async".codePoints && !(← newlineAhead) &&
      !(← seesAny [":", "(", "*", ","])
    let key ← if asynchronous then Binding.key g else pure (.name name)
    return (some key, computed, asynchronous)
  | _ =>
    if ← sees "*" then
      discard next
      return (none, false, false)
    else
      let computed ← sees "["
      return (some (← Binding.key g), computed, false)

/-- A property of an object literal. `hasProto` tells whether the prototype was given before, and the
answer whether it is now. -/
def property (hasProto : Bool) : Parse (Node × Bool) := do
  let token ← ahead
  let (key, computed, asynchronous) ← propertyStart g token
  let keyAhead := (← ahead).lexeme.beginsKey
  let made (key value : Node) : Node := .branch .property [key, value]
  if isName token.lexeme "get" && keyAhead then
    let key ← Binding.key g
    setContext fun c => { c with allowYield := false }
    return (made key (← Function.getter g), hasProto)
  else if isName token.lexeme "set" && keyAhead then
    let key ← Binding.key g
    return (made key (← Function.setter g), hasProto)
  else if isMark token.lexeme "*" && keyAhead then
    let key ← Binding.key g
    return (made key (← Function.generatorMethod g), hasProto)
  else
    let some key := key | unexpectedAhead
    if !asynchronous && (← sees ":") then
      let proto := !computed && isKey key "__proto__"
      if proto && hasProto then failHere .duplicateProto
      discard next
      return (made key (← inherited g.assignment), hasProto || proto)
    else if ← sees "(" then
      let value ← if asynchronous then Function.asyncMethod g else Function.method g
      return (made key value, hasProto)
    else
      match token.lexeme with
      | .identifier name =>
        if ← sees "=" then
          let initializer ← ahead
          setContext fun c => { c with coverInitializer := some initializer }
          discard next
          let value ← isolated g.assignment
          return (made key (.branch .assignmentPattern [.name name, value]), hasProto)
        else return (made key (.name name), hasProto)
      | _ => unexpected (← next)

def object : Parse Node := do
  expect "\x7b"
  let (properties, _) ← loop ([], false) fun (properties, hasProto) => do
    if ← sees "\x7d" then return .inr (properties, hasProto)
    let (node, hasProto) ←
      if ← sees "..." then pure (← spread g, hasProto) else property g hasProto
    unless ← sees "\x7d" do expect ","
    return .inl (properties ++ [node], hasProto)
  expect "\x7d"
  return .branch .objectExpression [.list properties]

def chunkOf (raw : Text) (token : Token) : Chunk := ⟨raw, ⟨token.start, token.stop⟩⟩

/-- A template. An operand cannot begin where a slot ends, and a slot ends with its own brace. -/
def template : Parse Node := do
  let first ← next
  match first.lexeme with
  | .chunk raw _ closes =>
    let (chunks, slots) ← loop ([chunkOf raw first], [], closes) fun (chunks, slots, closed) => do
      if closed then return .inr (chunks, slots)
      let slot ← Function.expression g
      let token ← ahead
      match token.lexeme with
      | .chunk raw _ closes =>
        discard next
        return .inl (chunks ++ [chunkOf raw token], slots ++ [slot], closes)
      | _ => failAfter .illegal
    return .template chunks slots
  | _ => unexpected first

def templateOperand : Parse Node := do
  match (← ahead).lexeme with
  | .chunk _ true _ => template g
  | _ => throw .emptySlot

end ClassMigration.Script.Literal
