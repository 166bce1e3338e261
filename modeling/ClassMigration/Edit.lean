import ClassMigration.Span

/-! Edits of a source text and their application in one pass. Text outside the edited spans is copied
through; two edits may touch but not overlap. -/
namespace ClassMigration

/-- Replaces the span by the text. -/
structure Edit where
  span : Span
  text : Text
  deriving DecidableEq, Repr

/-- An edit that starts at `offset`, before the previous edit's end `previous`. -/
structure Overlap where
  offset : Nat
  previous : Nat
  deriving DecidableEq, Repr

namespace Edit

def insert (edit : Edit) : List Edit → List Edit
  | [] => [edit]
  | other :: more =>
    if edit.span.precedes other.span then edit :: other :: more else other :: insert edit more

/-- Edits by span; those of one span keep their order. -/
def arranged : List Edit → List Edit
  | [] => []
  | edit :: more => insert edit (arranged more)

/-- Copies `source` from `cursor` on, with the edits spliced in. -/
def splice (source : Text) : Nat → List Edit → Except Overlap Text
  | cursor, [] => .ok (source.drop cursor)
  | cursor, edit :: more =>
    if edit.span.start < cursor then .error ⟨edit.span.start, cursor⟩
    else do
      let rest ← splice source edit.span.stop more
      return source.slice cursor edit.span.start ++ edit.text ++ rest

def applyAll (source : Text) (edits : List Edit) : Except Overlap Text :=
  splice source 0 (arranged edits)

@[simp] theorem applyAll_nil (source : Text) : applyAll source [] = .ok source := rfl

@[simp] theorem length_insert (edit : Edit) (edits : List Edit) :
    (insert edit edits).length = edits.length + 1 := by
  induction edits with
  | nil => rfl
  | cons other more ih => simp only [insert]; split <;> simp [ih]

@[simp] theorem length_arranged (edits : List Edit) : (arranged edits).length = edits.length := by
  induction edits with
  | nil => rfl
  | cons edit more ih => simp [arranged, ih]

theorem mem_insert {edit other : Edit} {edits : List Edit} :
    other ∈ insert edit edits ↔ other = edit ∨ other ∈ edits := by
  induction edits with
  | nil => simp [insert]
  | cons next more ih =>
    simp only [insert]
    split
    · simp
    · simp [ih, or_left_comm]

theorem mem_arranged {other : Edit} {edits : List Edit} : other ∈ arranged edits ↔ other ∈ edits := by
  induction edits with
  | nil => simp [arranged]
  | cons edit more ih => simp [arranged, mem_insert, ih]

end Edit

end ClassMigration
