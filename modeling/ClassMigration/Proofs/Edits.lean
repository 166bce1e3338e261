import ClassMigration.Edit

/-! Edits in the order of their source. Where such edits can be spliced in as they stand, they are the edits
that are made. -/
namespace ClassMigration

namespace Edit

variable {source out : Text} {edits : List Edit}

theorem splice_cons_ok {cursor : Nat} {edit : Edit} {more : List Edit} :
    splice source cursor (edit :: more) = .ok out ↔ cursor ≤ edit.span.start ∧
      ∃ rest, splice source edit.span.stop more = .ok rest ∧
        out = source.slice cursor edit.span.start ++ edit.text ++ rest := by
  rw [splice]
  by_cases overlaps : edit.span.start < cursor
  · rw [if_pos overlaps]
    constructor
    · intro ok
      cases ok
    · rintro ⟨later, -⟩
      exact absurd later (Nat.not_le.mpr overlaps)
  · rw [if_neg overlaps]
    cases splice source edit.span.stop more with
    | error => simp [bind, Except.bind]
    | ok rest => simp [bind, Except.bind, pure, Except.pure, Nat.not_lt.mp overlaps, eq_comm]

/-- A splice may begin earlier; what lies between is copied. -/
theorem splice_earlier {i j : Nat} (order : i ≤ j) (ok : splice source j edits = .ok out) :
    splice source i edits = .ok (source.slice i j ++ out) := by
  cases edits with
  | nil =>
    obtain rfl : source.drop j = out := by simpa [splice] using ok
    rw [splice, Text.slice_append_drop order]
  | cons edit more =>
    obtain ⟨later, rest, tail, rfl⟩ := splice_cons_ok.mp ok
    refine splice_cons_ok.mpr ⟨Nat.le_trans order later, rest, tail, ?_⟩
    rw [← Text.slice_append order later]
    simp

theorem arranged_of_splice {cursor : Nat} (ok : splice source cursor edits = .ok out)
    (filled : ∀ edit ∈ edits, edit.span.start < edit.span.stop) : arranged edits = edits := by
  induction edits generalizing cursor out with
  | nil => rfl
  | cons edit more ih =>
    obtain ⟨-, rest, tail, -⟩ := splice_cons_ok.mp ok
    have own := filled edit List.mem_cons_self
    rw [arranged, ih tail fun e mem => filled e (List.mem_cons_of_mem edit mem)]
    cases more with
    | nil => rfl
    | cons other more =>
      obtain ⟨later, -⟩ := splice_cons_ok.mp tail
      have first : edit.span.precedes other.span :=
        Span.precedes_iff.mpr (.inl (Nat.lt_of_lt_of_le own later))
      rw [insert, if_pos first]

theorem applyAll_of_splice (ok : splice source 0 edits = .ok out)
    (filled : ∀ edit ∈ edits, edit.span.start < edit.span.stop) : applyAll source edits = .ok out := by
  rw [applyAll, arranged_of_splice ok filled]
  exact ok

end Edit

end ClassMigration
