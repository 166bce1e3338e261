import ClassMigration.CommandLine.Arguments
import ClassMigration.Migration

/-! What the program says of its arguments: the usage, which stands before every refusal, and the help, which
lists the arguments with what each is for. -/
namespace ClassMigration.CommandLine

def usage : Text :=
  ("usage: deprecation-codemod [-h] [--glob GLOB] [--dry-run]\n" ++
    "                           [--quote \x7bsingle,double,auto\x7d] [--trailing-comma]\n" ++
    "                           [--jobs JOBS] [--log-level LOG_LEVEL]\n" ++
    "                           codemod paths [paths ...]\n").codePoints

namespace Parameter

def valueTitle : Parameter → Text
  | help | dryRun | trailingComma => []
  | glob => "GLOB".codePoints
  | quote => .char '\x7b' :: Text.joined [.char ','] (UsageFault.quoteChoices.map QuoteChoice.name) ++ [.char '\x7d']
  | jobs => "JOBS".codePoints
  | logLevel => "LOG_LEVEL".codePoints

def synopsis (parameter : Parameter) : Text :=
  if parameter = help then shortHelp ++ ", ".codePoints ++ parameter.long
  else if parameter.takesValue then parameter.long ++ .char ' ' :: parameter.valueTitle
  else parameter.long

def purpose : Parameter → Text
  | help => "show this help message and exit".codePoints
  | glob => "Pattern used to expand directories".codePoints
  | dryRun => "Print changed files instead of writing them".codePoints
  | quote => "Quote style for rewritten string literals".codePoints
  | trailingComma => "Trailing comma style for printed nodes".codePoints
  | jobs => "Number of files processed in parallel".codePoints
  | logLevel => "DEBUG, INFO, WARNING, ERROR".codePoints

end Parameter

/-- The column in which help tells what an argument is for. -/
def purposeColumn : Nat := 24

/-- An argument in the help. A title that reaches the column of the purpose has a line for itself. -/
def helpEntry (title purpose : Text) : Text :=
  let front := "  ".codePoints ++ title
  let gap : Text := if front.length + 2 ≤ purposeColumn then List.replicate (purposeColumn - front.length) ' '
    else '\n' :: List.replicate purposeColumn ' '
  front ++ gap ++ purpose ++ [.char '\n']

def help : Text :=
  usage ++ "\nMigrate deprecated component class names in JS/JSX and CSS files\n".codePoints ++
    "\npositional arguments:\n".codePoints ++
    helpEntry "codemod".codePoints
      ("Codemod to apply (".codePoints ++ Text.joined ", ".codePoints Migration.available ++ [.char ')']) ++
    helpEntry "paths".codePoints "Files or directories to transform".codePoints ++
    "\noptions:\n".codePoints ++
    Parameter.all.flatMap fun parameter => helpEntry parameter.synopsis parameter.purpose

end ClassMigration.CommandLine
