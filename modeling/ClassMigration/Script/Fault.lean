import ClassMigration.Script.Token
import ClassMigration.Text.Decimal

/-! What can be wrong with a script, and the message for it. -/
namespace ClassMigration.Script

inductive Cause where
  /-- A token that cannot stand where it does. -/
  | unexpected (token : Lexeme)
  /-- Characters that form no token, or a slot that does not end. -/
  | illegal
  /-- Something else than the one token that could follow. -/
  | misplaced
  /-- As `misplaced`, naming what stands there. -/
  | misplacedText (text : Text)
  | missingInitializer
  | boundLet
  | restrictedVariable
  | restrictedFunction
  | restrictedParameter
  | restrictedCatch
  | restrictedAssignment
  | restrictedOperand (before : Bool)
  | strictWord
  | duplicateParameter
  | restNotLast
  | restDefault
  | useStrictWithPatterns
  | getterParameters
  | setterParameters
  | setterRest
  | duplicateProto
  | secondConstructor
  | specialConstructor
  | asyncConstructor
  | staticPrototype
  | assignmentTarget
  | forInTarget
  | forOfTarget
  | forInInitializer
  | deletedName
  | withStatement
  | functionPlacement
  | octal
  | octalInTemplate
  | hexEscape
  | escapedKeyword
  | misplacedReturn
  | misplacedBreak
  | misplacedContinue
  | undefinedLabel (name : Text)
  | repeatedLabel (name : Text)
  | duplicateBinding (name : Text)
  | secondDefault
  | tryAlone
  | newlineAfterThrow
  | unterminatedRegExp
  | invalidRegExp
  | emptyAttribute
  | closingTag (opening : Text)
  deriving DecidableEq, Repr

def Lexeme.complaint (lexeme : Lexeme) : Text :=
  match lexeme with
  | .endOfInput => "Unexpected end of input".codePoints
  | .identifier _ => "Unexpected identifier".codePoints
  | .number .. => "Unexpected number".codePoints
  | .string .. => "Unexpected string".codePoints
  | .chunk raw _ _ => "Unexpected quasi ".codePoints ++ raw
  | .keyword word =>
    if futureWords.contains word then "Unexpected reserved word".codePoints
    else if strictWords.contains word then "Use of future reserved word in strict mode".codePoints
    else "Unexpected token ".codePoints ++ word
  | _ => "Unexpected token ".codePoints ++ lexeme.text

def Cause.message : Cause → Text
  | unexpected token => token.complaint
  | illegal => "Unexpected token ILLEGAL".codePoints
  | misplaced => "Unexpected token".codePoints
  | misplacedText text => "Unexpected token ".codePoints ++ text
  | missingInitializer => "Missing initializer in const declaration".codePoints
  | boundLet => "let is disallowed as a lexically bound name".codePoints
  | restrictedVariable => "Variable name may not be eval or arguments in strict mode".codePoints
  | restrictedFunction => "Function name may not be eval or arguments in strict mode".codePoints
  | restrictedParameter =>
    "Parameter name eval or arguments is not allowed in strict mode".codePoints
  | restrictedCatch => "Catch variable may not be eval or arguments in strict mode".codePoints
  | restrictedAssignment => "Assignment to eval or arguments is not allowed in strict mode".codePoints
  | restrictedOperand true =>
    "Prefix increment/decrement may not have eval or arguments operand in strict mode".codePoints
  | restrictedOperand false =>
    "Postfix increment/decrement may not have eval or arguments operand in strict mode".codePoints
  | strictWord => "Use of future reserved word in strict mode".codePoints
  | duplicateParameter => "Strict mode function may not have duplicate parameter names".codePoints
  | restNotLast => "Rest parameter must be last formal parameter".codePoints
  | restDefault => "Unexpected token =".codePoints
  | useStrictWithPatterns =>
    "Illegal 'use strict' directive in function with non-simple parameter list".codePoints
  | getterParameters => "Getter must not have any formal parameters".codePoints
  | setterParameters => "Setter must have exactly one formal parameter".codePoints
  | setterRest => "Setter function argument must not be a rest parameter".codePoints
  | duplicateProto => "Duplicate __proto__ fields are not allowed in object literals".codePoints
  | secondConstructor => "A class may only have one constructor".codePoints
  | specialConstructor => "Class constructor may not be an accessor".codePoints
  | asyncConstructor => "Class constructor may not be an async method".codePoints
  | staticPrototype => "Classes may not have static property named prototype".codePoints
  | assignmentTarget => "Invalid left-hand side in assignment".codePoints
  | forInTarget => "Invalid left-hand side in for-in".codePoints
  | forOfTarget => "Invalid left-hand side in for-loop".codePoints
  | forInInitializer => "for-in loop variable declaration may not have an initializer".codePoints
  | deletedName => "Delete of an unqualified identifier in strict mode.".codePoints
  | withStatement => "Strict mode code may not include a with statement".codePoints
  | functionPlacement =>
    "In strict mode code, functions can only be declared at top level or inside a block".codePoints
  | octal => "Octal literals are not allowed in strict mode.".codePoints
  | octalInTemplate => "Octal literals are not allowed in template strings.".codePoints
  | hexEscape => "Invalid hexadecimal escape sequence".codePoints
  | escapedKeyword => "Keyword must not contain escaped characters".codePoints
  | misplacedReturn => "Illegal return statement".codePoints
  | misplacedBreak => "Illegal break statement".codePoints
  | misplacedContinue => "Illegal continue statement".codePoints
  | undefinedLabel name => "Undefined label '".codePoints ++ name ++ [.char '\'']
  | repeatedLabel name => "Label '".codePoints ++ name ++ "' has already been declared".codePoints
  | duplicateBinding name => "Duplicate binding ".codePoints ++ name
  | secondDefault => "More than one default clause in switch statement".codePoints
  | tryAlone => "Missing catch or finally after try".codePoints
  | newlineAfterThrow => "Illegal newline after throw".codePoints
  | unterminatedRegExp => "Invalid regular expression: missing /".codePoints
  | invalidRegExp => "Invalid regular expression".codePoints
  | emptyAttribute => "JSX attributes must only be assigned a non-empty expression".codePoints
  | closingTag opening => "Expected corresponding JSX closing tag for ".codePoints ++ opening

/-- Why no tree comes of a script. -/
inductive Fault where
  | at (line : Nat) (cause : Cause)
  /-- An operand was due where a slot ends. -/
  | emptySlot
  /-- A character reference beyond the last code point. -/
  | codePoint
  /-- A character reference beyond every machine number. -/
  | codePointSize
  /-- The bound on the parser's steps is used up; inputs do not reach it. -/
  | exhausted
  deriving DecidableEq, Repr

def Fault.message : Fault → Text
  | .at line cause => "Line ".codePoints ++ Text.decimal line ++ ": ".codePoints ++ cause.message
  | emptySlot => "Template literal must start with a template head".codePoints
  | codePoint => "chr() arg not in range(0x110000)".codePoints
  | codePointSize => "Python int too large to convert to C int".codePoints
  | exhausted => "out of steps".codePoints

end ClassMigration.Script
