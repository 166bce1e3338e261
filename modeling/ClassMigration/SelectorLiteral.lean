import ClassMigration.Edit
import ClassMigration.Migration
import ClassMigration.Options
import ClassMigration.Script.Outline

/-! Selector literals: a string that ends with a nested deprecated class gets the replacement in its place.
Such strings do not name the classes object, so they need no import. -/
namespace ClassMigration

open Script

namespace Migration

/-- The value with its deprecated ending replaced, by the first entry that fits. -/
def newValue? (migration : Migration) (value : Text) : Option Text :=
  migration.table.entries.findSome? fun entry =>
    value.replaceEnding? (migration.nesting ++ entry.oldToken) (migration.nesting ++ entry.newToken)

/-- The quote that an edited literal gets. An attribute's literal always keeps its own. -/
def literalQuote (options : Options) (literal : StringLiteral) : Quote :=
  match options.quote.quote? with
  | some quote => if literal.inAttribute then .ofWritten literal.written else quote
  | none => .ofWritten literal.written

/-- The literal edited as written, with its escapes; none if its body does not end with a deprecated
class as written. -/
def editedWritten? (migration : Migration) (options : Options) (literal : StringLiteral) :
    Option Text :=
  (migration.newValue? (literal.written.drop 1).dropLast).map fun (body : Text) =>
    let quote := literalQuote options literal
    if quote = .ofWritten literal.written then quote.mark :: body ++ [quote.mark]
    else body.requoted [quote.mark]

/-- The text of an edited literal: as written if that can be edited, else the new value written anew. In
an attribute no value can be written anew. -/
def literalText? (migration : Migration) (options : Options) (literal : StringLiteral)
    (value : Text) : Option Text :=
  match migration.editedWritten? options literal with
  | some text => some text
  | none =>
    if literal.inAttribute then none
    else some (value.quoted [(literalQuote options literal).mark])

end Migration

namespace Script.StringLiteral

/-- Where the literal stands within its reported span. -/
def place? (literal : StringLiteral) (source : Text) : Option Span :=
  let reported := literal.span.text source
  if reported = literal.written then some literal.span
  else (reported.find? literal.written).map fun offset =>
    ⟨literal.span.start + offset, literal.span.start + offset + literal.written.length⟩

end Script.StringLiteral

namespace Migration

def literalEdit? (migration : Migration) (source : Text) (options : Options)
    (literal : StringLiteral) : Option Edit := do
  let value ← migration.newValue? literal.value
  let span ← literal.place? source
  let text ← migration.literalText? options literal value
  return ⟨span, text⟩

def literalEdits (migration : Migration) (outline : Outline) (options : Options) : List Edit :=
  outline.strings.filterMap (migration.literalEdit? outline.source options)

end Migration

end ClassMigration
