import ClassMigration.Deprecation
import ClassMigration.Edit
import ClassMigration.Options
import ClassMigration.Script.Fault

/-! Failures of a migration and how they are told. -/
namespace ClassMigration

/-- Why a stylesheet rule cannot be read, and where. -/
structure RuleFault where
  message : Text
  line : Nat
  column : Nat
  deriving DecidableEq, Repr

def RuleFault.text (fault : RuleFault) : Text :=
  fault.message ++ " (line ".codePoints ++ Text.decimal fault.line ++ ", column ".codePoints ++
    Text.decimal fault.column ++ [.char ')']

def Overlap.message (overlap : Overlap) : Text :=
  "Overlapping edits at offset ".codePoints ++ Text.decimal overlap.offset ++
    " (previous edit ends at ".codePoints ++ Text.decimal overlap.previous ++ [.char ')']

inductive Failure where
  /-- The source cannot be read; the file is left as it is. -/
  | unreadable (file : Option Text) (reason : Text)
  /-- No migration has the name. -/
  | unknownMigration (name : Text) (available : List Text)
  | invalidOptions (reason : Text)
  /-- The options have no shape that could be read. -/
  | malformedOptions (fault : OptionsFault)
  /-- Another failure that the program foresees. -/
  | foreseen (reason : Text)
  | duplicate (found : Deprecation.Duplicate)
  | overlap (found : Overlap)
  /-- A script ends the reader in another way than by a syntax error. -/
  | script (fault : Script.Fault)
  /-- A failure from outside. -/
  | unforeseen (reason : Text)

namespace Failure

/-- A file's name in front of a message; an empty or absent one is called the source. -/
def located (file : Option Text) (reason : Text) : Text :=
  let place := match file with
    | some (c :: rest) => c :: rest
    | _ => "<source>".codePoints
  place ++ ": ".codePoints ++ reason

def ofFault (file : Option Text) : Script.Fault → Failure
  | .at line cause => unreadable file (Script.Fault.message (.at line cause))
  | fault => script fault

def ofOptions : OptionsFault → Failure
  | .unsupportedQuote spelling => invalidOptions (OptionsFault.message (.unsupportedQuote spelling))
  | fault => malformedOptions fault

def message : Failure → Text
  | unreadable file reason => located file reason
  | unknownMigration name available =>
    "Unknown codemod '".codePoints ++ name ++ [.char '\''] ++
      if available.isEmpty then []
      else " (available: ".codePoints ++ Text.joined ", ".codePoints available ++ [.char ')']
  | invalidOptions reason => reason
  | malformedOptions fault => fault.message
  | foreseen reason => reason
  | duplicate found => found.message
  | overlap found => found.message
  | script fault => fault.message
  | unforeseen reason => reason

/-- A failure with an exit code of its own: one that the program foresees. -/
def exitCode? : Failure → Option Nat
  | unreadable .. | foreseen _ => some 1
  | unknownMigration .. | invalidOptions _ => some 3
  | malformedOptions _ | duplicate _ | overlap _ | script _ | unforeseen _ => none

def report (failure : Failure) : Text :=
  match failure.exitCode? with
  | some _ => "Error: ".codePoints ++ failure.message
  | none => "Unexpected error: ".codePoints ++ failure.message

def kindName : Failure → Text
  | script .emptySlot => "AssertionError".codePoints
  | script .codePointSize => "OverflowError".codePoints
  | script .exhausted => "RecursionError".codePoints
  | _ => "ValueError".codePoints

/-- What a run reports of a file that fails. -/
def fileReport (failure : Failure) : Text :=
  match failure.exitCode? with
  | some _ => failure.message
  | none => failure.kindName ++ ": ".codePoints ++ failure.message

end Failure

end ClassMigration
