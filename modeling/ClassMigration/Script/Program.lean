import ClassMigration.Script.Exchange

/-! Whole scripts. A script is a module in strict code: imports, exports, statements and declarations up
to the end of input. -/
namespace ClassMigration.Script

open Parse

namespace Program

def item (g : Grammar) : Parse Node := do
  setContext fun c => { c with assignable := true, bindable := true }
  match (← ahead).lexeme with
  | .keyword word =>
    if word == "export".codePoints then Exchange.exportDeclaration g
    else if word == "import".codePoints then
      if ← seesImportCall then Statement.expressionStatement g else Exchange.importDeclaration
    else if word == "const".codePoints then Statement.lexicalDeclaration g
    else if word == "function".codePoints then Function.declaration g false
    else if word == "class".codePoints then Class.declaration g false
    else if word == "let".codePoints then
      if ← Statement.declaresLexically then Statement.lexicalDeclaration g else g.statement
    else g.statement
  | _ => g.statement

/-- The grammar with constructs inside one another up to a depth. -/
def grammar : Nat → Grammar
  | 0 => .exhausted
  | depth + 1 => {
      assignment := fun s => Expression.assignment (grammar depth) s
      unary := fun s => Expression.unary (grammar depth) s
      power := fun s => Expression.power (grammar depth) s
      operand := fun s => Expression.operand (grammar depth) s
      callee := fun s => Expression.callee (grammar depth) s
      primary := fun s => Expression.primary (grammar depth) s
      statement := fun s => Statement.statement (grammar depth) s
      item := fun s => item (grammar depth) s
      pattern := fun lexical s => Binding.pattern (grammar depth) lexical s
      element := fun s => Element.element (grammar depth) s }

def items (g : Grammar) : Parse (List Node) := do
  let opening ← Function.directives g
  let more ← whilst (return !(← atEnd)) g.item
  return opening ++ more

/-- No script nests deeper: each construct takes a character of its own. -/
def depth (source : Text) : Nat := 8 * source.length + 16

def parse (source : Text) : Except Fault (List Node) := do
  let state ← begin source
  let (nodes, _) ← items (grammar (depth source)) state
  return nodes

end Program

end ClassMigration.Script
