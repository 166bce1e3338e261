import ClassMigration.Script.Binding

/-! Functions: their parameters, bodies and directives. -/
namespace ClassMigration.Script

/-- Parameters, with what is wrong with their names, which is told after the body. -/
structure Parameters where
  nodes : List Node
  /-- Every parameter is a name. -/
  simple : Bool
  /-- The last name with a fault, at its line, and the fault. -/
  fault : Option (Nat × Cause)
  seen : List Text

namespace Parameters

def none : Parameters := ⟨[], true, Option.none, []⟩

/-- Checks one name that a parameter binds, written at `line`. -/
def bind (p : Parameters) (name : Text) (line : Nat) : Parameters :=
  let fault :=
    if p.seen.contains name then some (line, .duplicateParameter)
    else if isRestricted name then some (line, .restrictedParameter)
    else p.fault
  { p with fault, seen := name :: p.seen }

def add (p : Parameters) (node : Node) : Parameters :=
  { p with nodes := p.nodes ++ [node], simple := p.simple && node.name?.isSome }

end Parameters

namespace Function

open Parse

variable (g : Grammar)

def parameter (p : Parameters) : Parse Parameters := do
  let (node, names) ←
    if ← sees "..." then Binding.restParameter g else Binding.withDefault g false
  let p := names.foldl (fun p token => p.bind token.lexeme.text token.line) p
  return p.add node

def parameters : Parse Parameters := do
  expect "("
  let made ←
    if ← sees ")" then pure Parameters.none
    else loop Parameters.none fun p => do
      if ← atEnd then return .inr p
      let p ← parameter g p
      if ← sees ")" then return .inr p
      expect ","
      return if ← sees ")" then .inr p else .inl p
  expect ")"
  return made

def expression : Parse Node := do
  let first ← isolated g.assignment
  if ← sees "," then
    let more ← whilst (sees ",") do
      discard next
      isolated g.assignment
    return .branch .sequence [.list (first :: more)]
  else return first

/-- One directive, and whether more may follow: it is a string alone, and not an empty one. -/
def directive : Parse (Node × Bool) := do
  let token ← ahead
  let node ← expression g
  semicolon
  let statement := Node.branch .expressionStatement [node]
  match node with
  | .string _ written _ =>
    let body := (written.drop 1).dropLast
    if body == "use strict".codePoints && !(← context).allowStrictDirective then
      failAt token .useStrictWithPatterns
    return (statement, !body.isEmpty)
  | _ => return (statement, false)

/-- The directives at the start of a body. No octal escape comes so far: strings refuse them. -/
def directives : Parse (List Node) :=
  loop [] fun made => do
    match (← ahead).lexeme with
    | .string .. =>
      let (node, more) ← directive g
      return if more then .inl (made ++ [node]) else .inr (made ++ [node])
    | _ => return .inr made

def body : Parse Node := do
  expect "\x7b"
  let opening ← directives g
  let before ← context
  setContext fun c => { c with
    labels := [], inLoop := false, inSwitch := false, inFunction := true }
  let items ← whilst (return !(← atEnd) && !(← sees "\x7d")) g.item
  expect "\x7d"
  setContext fun c => { c with
    labels := before.labels
    inLoop := before.inLoop
    inSwitch := before.inSwitch
    inFunction := before.inFunction }
  return .branch .block [.list (opening ++ items)]

def checked (p : Parameters) : Parse Unit :=
  match p.fault with
  | some (line, cause) => throw (.at line cause)
  | none => return

def bodyAfter (read : Parse Node) (p : Parameters) : Parse Node := do
  let before := (← context).allowStrictDirective
  setContext fun c => { c with allowStrictDirective := p.simple }
  let node ← read
  checked p
  setContext fun c => { c with allowStrictDirective := before }
  return node

def afterName (kind : Kind) (name : List Node) : Parse Node := do
  let p ← parameters g
  let node ← bodyAfter (body g) p
  return .branch kind (name ++ [.list p.nodes, node])

/-- Runs a step with `await` and `yield` as the function's own kind sets them. -/
def within (await allowYield : Bool) (step : Parse α) : Parse α := do
  let before ← context
  setContext fun c => { c with await, allowYield }
  let made ← step
  setContext fun c => { c with await := before.await, allowYield := before.allowYield }
  return made

/-- The words before a function's name: whether it is asynchronous, and whether a generator. -/
def opening : Parse (Bool × Bool) := do
  let asynchronous ← seesName "async"
  if asynchronous then discard next
  expectKeyword "function"
  let generator ← if asynchronous then pure false else sees "*"
  if generator then discard next
  return (asynchronous, generator)

def functionName : Parse Node := do
  let token ← ahead
  let node ← Binding.identifier
  if isRestricted token.lexeme.text then failAt token .restrictedFunction
  return node

/-- A function declaration. Only an exported default may go without a name. -/
def declaration (nameless : Bool) : Parse Node := do
  let (asynchronous, generator) ← opening
  let name ← if nameless && (← sees "(") then pure [] else pure [← functionName]
  within asynchronous (!generator) (afterName g .functionDeclaration name)

def functionExpression : Parse Node := do
  let (asynchronous, generator) ← opening
  within asynchronous (!generator) do
    let name ← if ← sees "(" then pure [] else pure [← functionName]
    afterName g .functionExpression name

def methodBody (p : Parameters) : Parse Node := do
  plain
  bodyAfter (isolated (body g)) p

def methodOf (p : Parameters) (node : Node) : Node :=
  .branch .functionExpression [.list p.nodes, node]

/-- Runs a step with `yield` as a method's kind sets it. -/
def withYield (allowYield : Bool) (step : Parse α) : Parse α := do
  let before := (← context).allowYield
  setContext fun c => { c with allowYield }
  let made ← step
  setContext fun c => { c with allowYield := before }
  return made

def method : Parse Node := withYield true do
  let p ← parameters g
  return methodOf p (← methodBody g p)

def asyncMethod : Parse Node := within true false do
  let p ← parameters g
  return methodOf p (← methodBody g p)

def generatorMethod : Parse Node := withYield true do
  let p ← parameters g
  setContext fun c => { c with allowYield := false }
  return methodOf p (← methodBody g p)

def getter : Parse Node := withYield true do
  let p ← parameters g
  unless p.nodes.isEmpty do failHere .getterParameters
  return methodOf p (← methodBody g p)

def setter : Parse Node := withYield true do
  let p ← parameters g
  match p.nodes with
  | [node] => if node.isKind .restElement then failHere .setterRest
  | _ => failHere .setterParameters
  return methodOf p (← methodBody g p)

end Function

end ClassMigration.Script
