import ClassMigration.Edit

/-! The outcome of a migration on one source text. -/
namespace ClassMigration

inductive Status where
  | changed
  | unchanged
  deriving DecidableEq, Repr

def Status.name : Status → Text
  | changed => "changed".codePoints
  | unchanged => "unchanged".codePoints

structure Outcome where
  source : Text
  output : Text
  status : Status
  edits : Nat
  deriving DecidableEq, Repr

namespace Outcome

def unchanged (source : Text) : Outcome := ⟨source, source, .unchanged, 0⟩

/-- The outcome of edits; without any the source stays as it is. -/
def ofEdits (source : Text) (edits : List Edit) : Except Overlap Outcome :=
  if edits.isEmpty then .ok (unchanged source)
  else (Edit.applyAll source edits).map fun output => ⟨source, output, .changed, edits.length⟩

end Outcome

end ClassMigration
