import ClassMigration.Script.Statement

/-! Imports and exports. -/
namespace ClassMigration.Script.Exchange

open Parse

variable (g : Grammar)

def source : Parse Node := do
  let start ← here
  match (← ahead).lexeme with
  | .string value written _ =>
    discard next
    return .string value written (← spanFrom start)
  | _ => failAfter .misplaced

/-- Another token than the one word that could follow. -/
def missingWord : Parse α := do
  let lexeme := (← ahead).lexeme
  failAfter (if lexeme.isVacant then .misplaced else .misplacedText lexeme.text)

def fromSource : Parse Node := do
  unless ← seesName "from" do missingWord
  discard next
  source

def importSpecifier : Parse Node := do
  match (← ahead).lexeme with
  | .identifier _ =>
    let imported ← Binding.identifier
    if ← seesName "as" then
      discard next
      return .branch .importSpecifier [← Binding.identifier, imported]
    else return .branch .importSpecifier [imported, imported]
  | _ =>
    let imported ← Expression.word
    if ← seesName "as" then
      discard next
      return .branch .importSpecifier [← Binding.identifier, imported]
    else unexpected (← next)

def namedImports : Parse (List Node) := do
  expect "\x7b"
  let made ← commaUntil "\x7d" importSpecifier
  expect "\x7d"
  return made

def importNamespace : Parse Node := do
  expect "*"
  unless ← seesName "as" do failAfter .misplaced
  discard next
  return .branch .importNamespace [← Expression.word]

def importSpecifiers : Parse (List Node) := do
  if ← sees "\x7b" then namedImports
  else if ← sees "*" then return [← importNamespace]
  else if (← ahead).lexeme.isWord && !(← seesKeyword "default") then
    let first := Node.branch .importDefault [← Expression.word]
    if ← sees "," then
      discard next
      if ← sees "*" then return [first, ← importNamespace]
      else if ← sees "\x7b" then return first :: (← namedImports)
      else unexpectedAhead
    else return [first]
  else unexpected (← next)

def outsideFunctions : Parse Unit := do
  if (← context).inFunction then failAfter .misplaced

def importDeclaration : Parse Node := do
  outsideFunctions
  discard next
  let (specifiers, module) ← match (← ahead).lexeme with
    | .string .. => pure ([], ← source)
    | _ =>
      let specifiers ← importSpecifiers
      pure (specifiers, ← fromSource)
  semicolon
  return .branch .importDeclaration [.list specifiers, module]

def exportSpecifier : Parse Node := do
  let name ← Expression.word
  if ← seesName "as" then
    discard next
    return .branch .exportSpecifier [← Expression.word, name]
  else return .branch .exportSpecifier [name, name]

def exportDefault : Parse Node := do
  discard next
  let made (node : Node) : Node := .branch .exportDefault [node]
  if ← seesKeyword "function" then return made (← Function.declaration g true)
  else if ← seesKeyword "class" then return made (← Class.declaration g true)
  else if ← seesName "async" then
    if ← seesAsyncFunction then return made (← Function.declaration g true)
    else return made (← g.assignment)
  else
    if ← seesName "from" then failAfter (.misplacedText "from".codePoints)
    let node ←
      if ← sees "\x7b" then Literal.object g
      else if ← sees "[" then Literal.array g
      else g.assignment
    semicolon
    return made node

/-- Names in braces, and whether the word `default` is among them, which only another module has. -/
def exportSpecifiers : Parse (List Node × Bool) := do
  expect "\x7b"
  let made ← commaUntil "\x7d" do
    let isDefault ← seesKeyword "default"
    return (← exportSpecifier, isDefault)
  expect "\x7d"
  return (made.map Prod.fst, made.any Prod.snd)

/-- What an export passes on: the default of a module under a name, names in braces, or both. -/
def exportedNames : Parse (List Node × Bool) := do
  match (← ahead).lexeme with
  | .identifier _ =>
    let first := Node.branch .exportDefaultSpecifier [← Expression.word]
    if ← sees "," then
      discard next
      let (more, hasDefault) ← exportSpecifiers
      return (first :: more, hasDefault)
    else return ([first], false)
  | _ => exportSpecifiers

def exportDeclaration : Parse Node := do
  outsideFunctions
  discard next
  let declared (node : Node) : Node := .branch .exportNamed [node, .list []]
  match (← ahead).lexeme with
  | .keyword word =>
    if word == "default".codePoints then exportDefault g
    else if word == "let".codePoints || word == "const".codePoints then
      return declared (← Statement.lexicalDeclaration g)
    else if ["var", "class", "function"].any (·.codePoints == word) then return declared (← g.item)
    else unexpectedAhead
  | .punctuator ['*'] =>
    discard next
    let module ← fromSource
    semicolon
    return .branch .exportAll [module]
  | _ =>
    if ← seesAsyncFunction then return declared (← Function.declaration g false)
    let (specifiers, hasDefault) ← exportedNames
    let module ←
      if ← seesName "from" then
        discard next
        pure [← source]
      else if hasDefault then missingWord
      else pure []
    semicolon
    return .branch .exportNamed (.list specifiers :: module)

end ClassMigration.Script.Exchange
