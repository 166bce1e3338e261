import ClassMigration.Proofs.SeparateEdits

/-! Edits in whatever order they come. The pass puts them into the order of their spans; where no two have the same
span there is one such order, so the pass gives the same text or tells the same overlap. What it tells is the first
edit in that order that begins before the end of the one before it. -/
namespace ClassMigration.Edit

variable {source : Text} {edits edits' more : List Edit} {edit first : Edit} {overlap : Overlap}

/-- Along a row of edits, `b` is the first that begins before the end of the edit in front of it, which is `a`. -/
inductive FirstClash : List Edit → Edit → Edit → Prop
  | here {a b : Edit} {more : List Edit} : b.span.start < a.span.stop → FirstClash (a :: b :: more) a b
  | later {first next a b : Edit} {more : List Edit} : first.span.stop ≤ next.span.start →
    FirstClash (next :: more) a b → FirstClash (first :: next :: more) a b

theorem splice_cons_error {cursor : Nat} : splice source cursor (edit :: more) = .error overlap ↔
    edit.span.start < cursor ∧ overlap = ⟨edit.span.start, cursor⟩ ∨
      cursor ≤ edit.span.start ∧ splice source edit.span.stop more = .error overlap := by
  rw [splice]
  by_cases overlaps : edit.span.start < cursor
  · simp [overlaps, Nat.not_le.mpr overlaps, eq_comm]
  · cases splice source edit.span.stop more <;>
      simp [overlaps, Nat.not_lt.mp overlaps, bind, Except.bind, pure, Except.pure]

/-- Behind an edit the pass is stopped by the first clash, if there is one. -/
theorem splice_eq_error_iff : splice source first.span.stop more = .error overlap ↔
    ∃ a b, FirstClash (first :: more) a b ∧ overlap = ⟨b.span.start, a.span.stop⟩ := by
  induction more generalizing first with
  | nil =>
    constructor
    · rintro ⟨⟩
    · rintro ⟨_, _, ⟨⟩, -⟩
  | cons next more ih =>
    rw [splice_cons_error, ih]
    constructor
    · rintro (⟨overlaps, told⟩ | ⟨behind, a, b, clash, told⟩)
      · exact ⟨first, next, .here overlaps, told⟩
      · exact ⟨a, b, .later behind clash, told⟩
    · rintro ⟨a, b, clash, told⟩
      cases clash with
      | here overlaps => exact .inl ⟨overlaps, told⟩
      | later behind clash => exact .inr ⟨behind, a, b, clash, told⟩

theorem applyAll_eq_error_iff : applyAll source edits = .error overlap ↔
    ∃ a b, FirstClash (bySpan edits) a b ∧ overlap = ⟨b.span.start, a.span.stop⟩ := by
  rw [applyAll, arranged_eq_bySpan]
  cases bySpan edits with
  | nil =>
    constructor
    · rintro ⟨⟩
    · rintro ⟨_, _, ⟨⟩, -⟩
  | cons first more =>
    rw [splice_cons_error, splice_eq_error_iff]
    simp

/-- Edits with spans of their own may come in any order: the output is the same, and where they are refused the same
two offsets are told, those of the first clash in the order of the spans. -/
theorem applyAll_eq_of_perm (distinct : (edits.map Edit.span).Nodup) (perm : edits.Perm edits') :
    applyAll source edits' = applyAll source edits ∧
      ∀ overlap, applyAll source edits' = .error overlap ↔
        ∃ a b, FirstClash (bySpan edits) a b ∧ overlap = ⟨b.span.start, a.span.stop⟩ := by
  have same : applyAll source edits' = applyAll source edits := by
    rw [applyAll, applyAll, arranged_eq_of_perm distinct perm]
  refine ⟨same, fun overlap => ?_⟩
  rw [same]
  exact applyAll_eq_error_iff

/-- Two of three edits overlap; the same overlap is told when they come backwards. -/
theorem applyAll_eq_of_perm_clashing :
    let source := "abcdef".codePoints
    let edits : List Edit := [⟨⟨4, 6⟩, [.char 'X']⟩, ⟨⟨0, 3⟩, [.char 'Y']⟩, ⟨⟨2, 5⟩, [.char 'Z']⟩]
    (edits.map Edit.span).Nodup ∧ edits.Perm edits.reverse ∧
      applyAll source edits.reverse = applyAll source edits ∧
      applyAll source edits = .error ⟨2, 3⟩ ∧
      ∃ a b, FirstClash (bySpan edits) a b ∧ (⟨2, 3⟩ : Overlap) = ⟨b.span.start, a.span.stop⟩ := by
  intro source edits
  have distinct : (edits.map Edit.span).Nodup := by decide
  have perm : edits.Perm edits.reverse := edits.reverse_perm.symm
  obtain ⟨same, told⟩ := @applyAll_eq_of_perm source edits edits.reverse distinct perm
  exact ⟨distinct, perm, same, rfl, (told ⟨2, 3⟩).mp rfl⟩

/-- Of two edits with one span the first comes first. -/
example : applyAll [] [⟨⟨0, 0⟩, [.char 'a']⟩, ⟨⟨0, 0⟩, [.char 'b']⟩] = .ok [.char 'a', .char 'b'] ∧
    applyAll [] [⟨⟨0, 0⟩, [.char 'b']⟩, ⟨⟨0, 0⟩, [.char 'a']⟩] = .ok [.char 'b', .char 'a'] := ⟨rfl, rfl⟩

end ClassMigration.Edit
