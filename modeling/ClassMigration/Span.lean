import ClassMigration.Text

/-! Half-open ranges of a source text. -/
namespace ClassMigration

/-- The characters at `start`, …, `stop - 1`. -/
structure Span where
  start : Nat
  stop : Nat
  deriving DecidableEq, Repr

namespace Span

/-- What stands in the range; a range that reaches past the end is cut there. -/
def text (span : Span) (source : Text) : Text := source.slice span.start span.stop

@[simp] theorem text_mk (start stop : Nat) (source : Text) :
    text ⟨start, stop⟩ source = source.slice start stop := rfl

/-- Order by start, then by stop. -/
def precedes (a b : Span) : Bool := a.start < b.start || (a.start == b.start && a.stop ≤ b.stop)

theorem precedes_iff {a b : Span} :
    precedes a b = true ↔ a.start < b.start ∨ (a.start = b.start ∧ a.stop ≤ b.stop) := by
  simp [precedes]

end Span

end ClassMigration
