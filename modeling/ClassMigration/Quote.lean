import ClassMigration.Text

/-! Quotation of script strings: which quote a literal was written with, writing a value as a literal
and moving a written body into another quote. -/
namespace ClassMigration

inductive Quote where
  | single
  | double
  deriving DecidableEq, Repr

namespace Quote

def mark : Quote → CodePoint
  | single => '\''
  | double => '"'

/-- The quote that opens a written literal; a single quote where none does. -/
def ofWritten : Text → Quote
  | '"' :: _ => double
  | _ => single

@[simp] theorem ofWritten_mark (quote : Quote) (body : Text) : ofWritten (quote.mark :: body) = quote := by
  cases quote <;> rfl

end Quote

namespace Text

/-- A value as a literal in `quote`: backslashes, quotes, line feeds and carriage returns are escaped,
in this order. -/
def quoted (value quote : Text) : Text :=
  let escaped := (((value.replace [.char '\\'] [.char '\\', .char '\\']).replace quote ('\\' :: quote)).replace
    [.char '\n'] [.char '\\', .char 'n']).replace [.char '\r'] [.char '\\', .char 'r']
  quote ++ escaped ++ quote

/-- A written body for another quote: escapes stay as they are and a bare quote gets a backslash. -/
def requotedBody (quote : Text) : Text → Text
  | [] => []
  | ['\\'] => [.char '\\']
  | '\\' :: c :: rest => '\\' :: c :: requotedBody quote rest
  | c :: rest => if [c] = quote then '\\' :: c :: requotedBody quote rest else c :: requotedBody quote rest

def requoted (body quote : Text) : Text := quote ++ requotedBody quote body ++ quote

/-- Puts `replacement` in the place of a non-empty ending. -/
def replaceEnding? (text ending replacement : Text) : Option Text :=
  if ending.isEmpty || !text.endsWith ending then none
  else some (text.take (text.length - ending.length) ++ replacement)

theorem replaceEnding?_append (start : Text) {ending : Text} (replacement : Text) (h : ending ≠ []) :
    replaceEnding? (start ++ ending) ending replacement = some (start ++ replacement) := by
  simp [replaceEnding?, endsWith, h]

end Text

end ClassMigration
