import ClassMigration.Options
import ClassMigration.Text.Decimal
import ClassMigration.Text.Display
import ClassMigration.Text.Integer

/-! Arguments of the command line: a migration's name, at least one path, and options before, between and
after them. A long option may be cut short where no other begins alike. -/
namespace ClassMigration.CommandLine

inductive Parameter where
  | help
  | glob
  | dryRun
  | quote
  | trailingComma
  | jobs
  | logLevel
  deriving DecidableEq, Repr

namespace Parameter

def all : List Parameter := [help, glob, dryRun, quote, trailingComma, jobs, logLevel]

def long : Parameter → Text
  | help => "--help".codePoints
  | glob => "--glob".codePoints
  | dryRun => "--dry-run".codePoints
  | quote => "--quote".codePoints
  | trailingComma => "--trailing-comma".codePoints
  | jobs => "--jobs".codePoints
  | logLevel => "--log-level".codePoints

/-- The short spelling of the one option that has any. -/
def shortHelp : Text := "-h".codePoints

def takesValue : Parameter → Bool
  | help | dryRun | trailingComma => false
  | glob | quote | jobs | logLevel => true

def title (parameter : Parameter) : Text :=
  if parameter = help then shortHelp ++ .char '/' :: long help else parameter.long

def spelled? (text : Text) : Option Parameter :=
  if text = shortHelp then some help else all.find? (·.long == text)

end Parameter

inductive UsageFault where
  | ambiguous (written : Text) (parameters : List Parameter)
  | missingValue (parameter : Parameter)
  | needlessValue (parameter : Parameter) (value : Text)
  | unknownQuote (value : Text)
  | noInteger (value : Text)
  /-- Nothing is given for these. -/
  | missing (names : List Text)
  | unrecognized (arguments : List Text)
  deriving DecidableEq, Repr

namespace UsageFault

def quoteChoices : List QuoteChoice := [.always .single, .always .double, .auto]

def about (parameter : Parameter) (reason : Text) : Text :=
  "argument ".codePoints ++ parameter.title ++ ": ".codePoints ++ reason

def message : UsageFault → Text
  | ambiguous written parameters =>
    "ambiguous option: ".codePoints ++ written ++ " could match ".codePoints ++
      Text.joined ", ".codePoints (parameters.map Parameter.long)
  | missingValue parameter => about parameter "expected one argument".codePoints
  | needlessValue parameter value =>
    about parameter ("ignored explicit argument ".codePoints ++ value.displayed)
  | unknownQuote value =>
    about .quote ("invalid choice: ".codePoints ++ value.displayed ++ " (choose from ".codePoints ++
      Text.joined ", ".codePoints (quoteChoices.map fun choice => choice.name.displayed) ++ [.char ')'])
  | noInteger value => about .jobs ("invalid int value: ".codePoints ++ value.displayed)
  | missing names =>
    "the following arguments are required: ".codePoints ++ Text.joined ", ".codePoints names
  | unrecognized arguments =>
    "unrecognized arguments: ".codePoints ++ Text.joined [.char ' '] arguments

end UsageFault

/-- An argument by its form. -/
inductive Argument where
  | operand (text : Text)
  /-- `--`, after which all arguments are operands. -/
  | divider
  | option (parameter : Parameter) (value : Option Text)
  /-- `-h` with more characters behind it. -/
  | cluster (tail : Text)
  | unknown (text : Text)
  deriving DecidableEq, Repr

namespace Argument

def divide : Text := "--".codePoints

def text : Argument → Text
  | operand text => text
  | divider => divide
  | option parameter _ => parameter.long
  | cluster tail => Parameter.shortHelp ++ tail
  | unknown text => text

def isOption : Argument → Bool
  | operand _ | divider => false
  | _ => true

/-- The part before the first equals sign, and the part after it. -/
def halves (text : Text) : Text × Option Text :=
  match text.dropWhile (· != .char '=') with
  | _ :: value => (text, some value).map (·.takeWhile (· != '=')) id
  | [] => (text, none)

/-- Digits, without the line feed that may end them. -/
def areDigits (text : Text) : Bool := !text.isEmpty && text.all isDecimalDigit

/-- A minus sign and a number, which is no option. -/
def isNegativeNumber (text : Text) : Bool :=
  match text with
  | '-' :: rest =>
    let number := if rest.getLast? == some (.char '\n') then rest.dropLast else rest
    areDigits number ||
      (match number.dropWhile isDecimalDigit with
      | '.' :: decimals => areDigits decimals
      | _ => false)
  | _ => false

/-- An argument that is not spelled as a whole option. -/
def ofDashed (text : Text) : Except UsageFault Argument :=
  let (opening, value) := halves text
  match Parameter.all.filter fun parameter => text.startsWith divide && parameter.long.startsWith opening with
  | [parameter] => .ok (option parameter value)
  | [] =>
    .ok (if text.startsWith Parameter.shortHelp then cluster (text.drop 2)
      else if isNegativeNumber text || text.contains ' ' then operand text
      else unknown text)
  | several => .error (.ambiguous text several)

/-- An argument before any divider. -/
def ofText (text : Text) : Except UsageFault Argument :=
  if !text.startsWith [.char '-'] || text = [.char '-'] then .ok (operand text)
  else match Parameter.spelled? text, (halves text).2.bind fun value =>
      (Parameter.spelled? (halves text).1).map fun parameter => (parameter, value) with
    | some parameter, _ => .ok (option parameter none)
    | none, some (parameter, value) => .ok (option parameter (some value))
    | none, none => ofDashed text

def ofTexts : List Text → Except UsageFault (List Argument)
  | [] => .ok []
  | text :: more =>
    if text = divide then .ok (divider :: more.map operand)
    else do
      let first ← ofText text
      let rest ← ofTexts more
      return first :: rest

end Argument

structure Request where
  migration : Text
  paths : List Text
  glob : Text
  dry : Bool
  options : Options
  /-- How many files to migrate at a time. -/
  jobs : Int
  logLevel : Text
  deriving DecidableEq, Repr

structure Reading where
  migration : Option Text
  paths : Option (List Text)
  /-- Arguments that have no place. -/
  rest : List Text
  request : Request

namespace Reading

/-- Before the first argument, with the value of every option that is not given. -/
def start : Reading :=
  ⟨none, none, [], ⟨[], [], "**/*".codePoints, false, ⟨.auto, false⟩, 1, "INFO".codePoints⟩⟩

/-- Operands as values: the first `--` among them is none. -/
def values (arguments : List Argument) : List Text := (arguments.map Argument.text).erase Argument.divide

/-- The operands after the first one; a divider that follows it directly belongs to it. -/
def afterFirst : List Argument → List Argument
  | .operand _ :: .divider :: more => more
  | .operand _ :: more => more
  | _ :: more => afterFirst more
  | [] => []

/-- Reads operands up to the next option. The first of all operands is the migration's name, and the paths
are those that follow it without a break. -/
def operands (reading : Reading) (arguments : List Argument) : Reading :=
  let texts := arguments.filterMap fun
    | .operand text => some text
    | _ => none
  match reading.migration, reading.paths, texts with
  | none, none, [name] => { reading with migration := some name }
  | none, none, name :: _ :: _ =>
    { reading with migration := some name, paths := some (values (afterFirst arguments)) }
  | some _, none, _ :: _ => { reading with paths := some (values arguments) }
  | _, _, _ => { reading with rest := reading.rest ++ arguments.map Argument.text }

def set (reading : Reading) (parameter : Parameter) (value : Text) : Except UsageFault Reading :=
  let request := reading.request
  match parameter with
  | .glob => .ok { reading with request := { request with glob := value } }
  | .quote =>
    match QuoteChoice.named? value with
    | some choice =>
      .ok { reading with request := { request with options := { request.options with quote := choice } } }
    | none => .error (.unknownQuote value)
  | .jobs =>
    match value.integer? with
    | some jobs => .ok { reading with request := { request with jobs } }
    | none => .error (.noInteger value)
  | .logLevel => .ok { reading with request := { request with logLevel := value } }
  | .help | .dryRun | .trailingComma => .error (.needlessValue parameter value)

def turnOn (reading : Reading) (parameter : Parameter) : Reading :=
  let request := reading.request
  match parameter with
  | .dryRun => { reading with request := { request with dry := true } }
  | .trailingComma =>
    { reading with request := { request with options := { request.options with trailingComma := true } } }
  | _ => reading

/-- Characters behind `-h`: `h` once more, an equals sign with a value that help does not take, or what is
not recognized. -/
def clusterFault? : Text → Option UsageFault
  | [] => none
  | '-' :: rest => some (.needlessValue .help ('-' :: rest))
  | 'h' :: '=' :: value => some (.needlessValue .help value)
  | 'h' :: rest => clusterFault? rest
  | _ => none

def finish (reading : Reading) : Except UsageFault Request :=
  match reading.migration, reading.paths with
  | some migration, some paths =>
    if reading.rest.isEmpty then .ok { reading.request with migration, paths }
    else .error (.unrecognized reading.rest)
  | migration, paths =>
    .error (.missing ((if migration.isNone then ["codemod".codePoints] else []) ++
      (if paths.isNone then ["paths".codePoints] else [])))

/-- Reads arguments, `run` holding the operands since the last option in reverse. Where help is asked for
there is no request. -/
def arguments (reading : Reading) (run : List Argument) :
    List Argument → Except UsageFault (Option Request)
  | [] => (reading.operands run.reverse).finish.map some
  | .operand text :: more => arguments reading (.operand text :: run) more
  | .divider :: more => arguments reading (.divider :: run) more
  | .unknown text :: more =>
    let before := reading.operands run.reverse
    arguments { before with rest := before.rest ++ [text] } [] more
  | .cluster tail :: _ =>
    match clusterFault? tail with
    | some fault => .error fault
    | none => .ok none
  | .option parameter (some value) :: more => do
    arguments (← (reading.operands run.reverse).set parameter value) [] more
  | .option parameter none :: more =>
    if parameter = .help then .ok none
    else if parameter.takesValue then
      match more with
      | .operand value :: others => do
        arguments (← (reading.operands run.reverse).set parameter value) [] others
      | _ => .error (.missingValue parameter)
    else arguments ((reading.operands run.reverse).turnOn parameter) [] more

end Reading

/-- Reads the texts of a command line; no request where help is asked for. -/
def read (texts : List Text) : Except UsageFault (Option Request) := do
  Reading.start.arguments [] (← Argument.ofTexts texts)

end ClassMigration.CommandLine
