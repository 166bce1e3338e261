import ClassMigration.Quote

/-! Options of a run: which quote edited script literals get. They are read from a settings value, in
which an absent, empty or zero value means the default. -/
namespace ClassMigration

/-- A settings value as a caller writes it. -/
inductive Setting where
  | null
  | flag (value : Bool)
  /-- A number by its spelling. -/
  | number (written : Text) (zero : Bool)
  | text (value : Text)
  | list (items : List Setting)
  | record (fields : List (Text × Setting))
  deriving Inhabited

namespace Setting

/-- Null, false, zero and everything empty count as not given. -/
def isGiven : Setting → Bool
  | null => false
  | flag value => value
  | number _ zero => !zero
  | text value => !value.isEmpty
  | list items => !items.isEmpty
  | record fields => !fields.isEmpty

def field? (fields : List (Text × Setting)) (key : Text) : Option Setting :=
  (fields.find? (·.1 == key)).map Prod.snd

/-- The field under its first name, or else under its second. -/
def either? (fields : List (Text × Setting)) (first second : Text) : Option Setting :=
  field? fields first <|> field? fields second

end Setting

/-- Which quote an edited literal gets. -/
inductive QuoteChoice where
  /-- Not chosen: the literal keeps its own. -/
  | unset
  /-- Chosen to stay the literal's own. -/
  | auto
  | always (quote : Quote)
  deriving DecidableEq, Repr

namespace QuoteChoice

def quote? : QuoteChoice → Option Quote
  | unset | auto => none
  | always quote => some quote

def name : QuoteChoice → Text
  | unset => []
  | auto => "auto".codePoints
  | always .single => "single".codePoints
  | always .double => "double".codePoints

def named? (name : Text) : Option QuoteChoice :=
  [auto, always .single, always .double].find? (·.name == name)

end QuoteChoice

inductive OptionsFault where
  | unsupportedQuote (spelling : Text)
  /-- A list or record stands where the quote's name belongs. -/
  | compoundQuote (value : Setting)
  /-- A given value stands where a record belongs. -/
  | notRecord (value : Setting)

def OptionsFault.message : OptionsFault → Text
  | unsupportedQuote spelling =>
    "Unsupported quote style '".codePoints ++ spelling ++ "' (expected 'single' or 'double')".codePoints
  | compoundQuote _ => "the quote style is not a name".codePoints
  | notRecord _ => "the options are not a record".codePoints

/-- How edited script literals are printed. `trailingComma` is accepted and never read: no edit
writes a list. -/
structure Options where
  quote : QuoteChoice
  trailingComma : Bool
  deriving DecidableEq, Repr

namespace Options

def default : Options := ⟨.unset, false⟩

def quoteOf : Setting → Except OptionsFault QuoteChoice
  | .null => .ok .unset
  | .text name => match QuoteChoice.named? name with
    | some choice => .ok choice
    | none => .error (.unsupportedQuote name)
  | .flag true => .error (.unsupportedQuote "True".codePoints)
  | .flag false => .error (.unsupportedQuote "False".codePoints)
  | .number written _ => .error (.unsupportedQuote written)
  | value => .error (.compoundQuote value)

def ofPrintSetting (value : Setting) : Except OptionsFault Options :=
  if !value.isGiven then .ok default else
    match value with
    | .record fields => do
      let comma := Setting.either? fields "trailingComma".codePoints "trailing_comma".codePoints
      let quote ← quoteOf ((Setting.field? fields "quote".codePoints).getD .null)
      return ⟨quote, (comma.getD .null).isGiven⟩
    | _ => .error (.notRecord value)

/-- Reads the options of a run, whose printing options stand under either of two names. -/
def ofSetting (value : Setting) : Except OptionsFault Options :=
  if !value.isGiven then .ok default else
    match value with
    | .record fields =>
      ofPrintSetting
        ((Setting.either? fields "printOptions".codePoints "print_options".codePoints).getD .null)
    | _ => .error (.notRecord value)

end Options

end ClassMigration
