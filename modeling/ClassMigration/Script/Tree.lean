import ClassMigration.Span

/-! Syntax trees of scripts. Names, strings, members and templates are kept in full; of every other
construct a tree keeps its kind and its parts in order. -/
namespace ClassMigration.Script

/-- The kinds of construct of which a tree keeps only the parts. -/
inductive Kind where
  | arrayExpression
  | arrayPattern
  | arrowFunction
  | assignment
  | assignmentPattern
  | awaitExpression
  | binary
  | block
  | breakStatement
  | call
  | catchClause
  | classBody
  | classDeclaration
  | classExpression
  | conditional
  | continueStatement
  | debuggerStatement
  | doWhile
  | emptyStatement
  | exportAll
  | exportDefault
  | exportDefaultSpecifier
  | exportNamed
  | exportSpecifier
  | expressionStatement
  | forIn
  | forOf
  | forLoop
  | functionDeclaration
  | functionExpression
  | ifStatement
  | importCallee
  | importDeclaration
  | importDefault
  | importNamespace
  | importSpecifier
  | jsxAttribute
  | jsxClosing
  | jsxElement
  | jsxEmpty
  | jsxContainer
  | jsxName
  | jsxMemberName
  | jsxNamespacedName
  | jsxOpening
  | jsxSpreadAttribute
  | jsxText
  | labeled
  | literal
  | logical
  | metaProperty
  | method
  | newExpression
  | objectExpression
  | objectPattern
  | program
  | property
  | restElement
  | returnStatement
  | sequence
  | spreadElement
  | superReference
  | switchCase
  | switchStatement
  | taggedTemplate
  | thisExpression
  | throwStatement
  | tryStatement
  | unary
  | update
  | variableDeclaration
  | variableDeclarator
  | whileLoop
  | yieldExpression
  /-- Parameters read as an expression, until the arrow that follows them is seen. -/
  | arrowParameters (asynchronous : Bool)
  deriving DecidableEq, Repr

def Kind.name : Kind → Text
  | arrayExpression => "ArrayExpression".codePoints
  | arrayPattern => "ArrayPattern".codePoints
  | arrowFunction => "ArrowFunctionExpression".codePoints
  | assignment => "AssignmentExpression".codePoints
  | assignmentPattern => "AssignmentPattern".codePoints
  | awaitExpression => "AwaitExpression".codePoints
  | binary => "BinaryExpression".codePoints
  | block => "BlockStatement".codePoints
  | breakStatement => "BreakStatement".codePoints
  | call => "CallExpression".codePoints
  | catchClause => "CatchClause".codePoints
  | classBody => "ClassBody".codePoints
  | classDeclaration => "ClassDeclaration".codePoints
  | classExpression => "ClassExpression".codePoints
  | conditional => "ConditionalExpression".codePoints
  | continueStatement => "ContinueStatement".codePoints
  | debuggerStatement => "DebuggerStatement".codePoints
  | doWhile => "DoWhileStatement".codePoints
  | emptyStatement => "EmptyStatement".codePoints
  | exportAll => "ExportAllDeclaration".codePoints
  | exportDefault => "ExportDefaultDeclaration".codePoints
  | exportDefaultSpecifier => "ExportDefaultSpecifier".codePoints
  | exportNamed => "ExportNamedDeclaration".codePoints
  | exportSpecifier => "ExportSpecifier".codePoints
  | expressionStatement => "ExpressionStatement".codePoints
  | forIn => "ForInStatement".codePoints
  | forOf => "ForOfStatement".codePoints
  | forLoop => "ForStatement".codePoints
  | functionDeclaration => "FunctionDeclaration".codePoints
  | functionExpression => "FunctionExpression".codePoints
  | ifStatement => "IfStatement".codePoints
  | importCallee => "Import".codePoints
  | importDeclaration => "ImportDeclaration".codePoints
  | importDefault => "ImportDefaultSpecifier".codePoints
  | importNamespace => "ImportNamespaceSpecifier".codePoints
  | importSpecifier => "ImportSpecifier".codePoints
  | jsxAttribute => "JSXAttribute".codePoints
  | jsxClosing => "JSXClosingElement".codePoints
  | jsxElement => "JSXElement".codePoints
  | jsxEmpty => "JSXEmptyExpression".codePoints
  | jsxContainer => "JSXExpressionContainer".codePoints
  | jsxName => "JSXIdentifier".codePoints
  | jsxMemberName => "JSXMemberExpression".codePoints
  | jsxNamespacedName => "JSXNamespacedName".codePoints
  | jsxOpening => "JSXOpeningElement".codePoints
  | jsxSpreadAttribute => "JSXSpreadAttribute".codePoints
  | jsxText => "JSXText".codePoints
  | labeled => "LabeledStatement".codePoints
  | literal => "Literal".codePoints
  | logical => "LogicalExpression".codePoints
  | metaProperty => "MetaProperty".codePoints
  | method => "MethodDefinition".codePoints
  | newExpression => "NewExpression".codePoints
  | objectExpression => "ObjectExpression".codePoints
  | objectPattern => "ObjectPattern".codePoints
  | program => "Program".codePoints
  | property => "Property".codePoints
  | restElement => "RestElement".codePoints
  | returnStatement => "ReturnStatement".codePoints
  | sequence => "SequenceExpression".codePoints
  | spreadElement => "SpreadElement".codePoints
  | superReference => "Super".codePoints
  | switchCase => "SwitchCase".codePoints
  | switchStatement => "SwitchStatement".codePoints
  | taggedTemplate => "TaggedTemplateExpression".codePoints
  | thisExpression => "ThisExpression".codePoints
  | throwStatement => "ThrowStatement".codePoints
  | tryStatement => "TryStatement".codePoints
  | unary => "UnaryExpression".codePoints
  | update => "UpdateExpression".codePoints
  | variableDeclaration => "VariableDeclaration".codePoints
  | variableDeclarator => "VariableDeclarator".codePoints
  | whileLoop => "WhileStatement".codePoints
  | yieldExpression => "YieldExpression".codePoints
  | arrowParameters _ => "ArrowParameterPlaceHolder".codePoints

/-- The text of a template before, between or after its slots, as written. Its span takes in what stands at
its two ends, a delimiter of the template or of a slot. -/
structure Chunk where
  raw : Text
  span : Span
  deriving DecidableEq, Repr

inductive Node where
  | name (id : Text)
  | string (value written : Text) (span : Span)
  /-- `object.property`, or `object[property]` when computed. -/
  | member (object property : Node) (computed : Bool) (span : Span)
  /-- A template: its chunks and the expressions in its slots. -/
  | template (chunks : List Chunk) (slots : List Node)
  /-- Parts that fill one place together, such as the arguments of a call. -/
  | list (items : List Node)
  | branch (kind : Kind) (parts : List Node)
  deriving Repr

namespace Node

def leaf (kind : Kind) : Node := branch kind []

def name? : Node → Option Text
  | name id => some id
  | _ => none

def kind? : Node → Option Kind
  | branch kind _ => some kind
  | _ => none

def isKind (node : Node) (kind : Kind) : Bool := node.kind? == some kind

mutual

/-- The pattern that an expression stands for on the left of an assignment or as a parameter. Other
expressions stay. -/
def asPattern : Node → Node
  | branch .spreadElement parts => branch .restElement (asPatterns parts)
  | branch .arrayExpression [list elements] => branch .arrayPattern [list (asPatterns elements)]
  | branch .objectExpression [list properties] =>
    branch .objectPattern [list (asProperties properties)]
  | branch .assignment [left, right] => branch .assignmentPattern [asPattern left, right]
  | node => node

def asPatterns : List Node → List Node
  | [] => []
  | node :: more => asPattern node :: asPatterns more

/-- The properties of an object with their values as patterns. -/
def asProperties : List Node → List Node
  | [] => []
  | branch .property [key, value] :: more =>
    branch .property [key, asPattern value] :: asProperties more
  | node :: more => asPattern node :: asProperties more

end

end Node

end ClassMigration.Script
