import ClassMigration.Migration
import ClassMigration.Outcome
import ClassMigration.Stylesheet.Rule

/-! Migration of stylesheets: in every selector a deprecated class gets its replacement. Matching goes by
the parts of a selector, never by its text, so a longer name is no match. -/
namespace ClassMigration

open Stylesheet

structure SelectorMatch where
  rule : StyleRule
  part : ClassPart
  entry : Deprecation
  deriving Repr

namespace Migration

variable (migration : Migration)

def selectorMatches (rule : StyleRule) : List SelectorMatch :=
  (Part.classesOf rule.parts).filterMap fun part =>
    (migration.table.withName? part.name).map fun entry => ⟨rule, part, entry⟩

/-- The edit of a match; an escaped class is left alone. -/
def selectorEdit? (source : Text) (found : SelectorMatch) : Option Edit :=
  if found.part.span.text source = found.entry.oldToken then
    some ⟨found.part.span, found.entry.newToken⟩
  else none

def selectorEdits (source : Text) (rule : StyleRule) : List Edit :=
  (migration.selectorMatches rule).filterMap (selectorEdit? source)

end Migration

namespace Stylesheet.Sheet

/-- The edits of several migrations, rule by rule and then migration by migration. -/
def edits (sheet : Sheet) (migrations : List Migration) : List Edit :=
  sheet.rules.flatMap fun rule =>
    migrations.flatMap fun migration => migration.selectorEdits sheet.source rule

end Stylesheet.Sheet

namespace Migration

/-- Migrates a stylesheet by several migrations at once; `file` names it in messages. -/
def editSheet (migrations : List Migration) (source : Text) (file : Option Text) :
    Except Failure Outcome := do
  let sheet ← (Sheet.read source).mapError fun fault => Failure.unreadable file fault.text
  (Outcome.ofEdits source (sheet.edits migrations)).mapError Failure.overlap

end Migration

end ClassMigration
