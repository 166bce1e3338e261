import ClassMigration.Failure
import ClassMigration.Outcome
import ClassMigration.SelectorLiteral
import ClassMigration.TemplateSlot

/-! Migration of scripts: template slots, if the script imports the classes object, and then selector
literals. All edits are made together, so a script is edited in full or not at all. -/
namespace ClassMigration.Migration

open Script

/-- The edits of a script, slots before literals. -/
def scriptEdits (migration : Migration) (outline : Outline) (options : Options) : List Edit :=
  let symbols := migration.symbols outline
  (if symbols.hasTracked then migration.slotEdits outline symbols else []) ++
    migration.literalEdits outline options

def editOutline (migration : Migration) (outline : Outline) (options : Options) :
    Except Overlap Outcome :=
  Outcome.ofEdits outline.source (migration.scriptEdits outline options)

/-- Migrates a script; `file` names it in messages. -/
def editScript (migration : Migration) (source : Text) (options : Options) (file : Option Text) :
    Except Failure Outcome := do
  let outline ← (Outline.read source).mapError (Failure.ofFault file)
  (migration.editOutline outline options).mapError Failure.overlap

end ClassMigration.Migration
