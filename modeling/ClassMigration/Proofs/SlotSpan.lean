import Mathlib.Data.List.TakeWhile
import ClassMigration.Proofs.SeparateEdits
import ClassMigration.TemplateSlot

/-! The span of a slot: the marker and the slot's opening, blanks, the member, blanks again and the closing
brace. Since nothing else stands beside the member, spans of members that are separate lead to separate
spans of slots, and no slot reaches into a quoted span. -/
namespace ClassMigration

namespace Text

variable {s : Text} {i j k : Nat} {c : CodePoint}

theorem getElem?_slice (inside : i + k < j) : (s.slice i j)[k]? = s[i + k]? := by
  rw [slice, List.getElem?_drop, List.getElem?_take_of_lt inside]

theorem mem_slice (start : i ≤ k) (stop : k < j) (found : s[k]? = some c) : c ∈ s.slice i j := by
  have same : (s.slice i j)[k - i]? = some c := by
    rw [getElem?_slice (by omega), Nat.add_sub_cancel' start, found]
  exact List.mem_of_getElem? same

/-- Every character from `i` up to `j` is a blank. -/
def BlankFrom (s : Text) (i j : Nat) : Prop := ∀ k c, i ≤ k → k < j → s[k]? = some c → isBlank c = true

end Text

namespace Span

/-- The span holds something and ends neither with a blank nor with an opening brace. -/
structure Solid (source : Text) (span : Span) : Prop where
  filled : span.start < span.stop
  last : ∃ c ∈ source[span.stop - 1]?, isBlank c = false ∧ c ≠ '\x7b'

/-- A quote stands at either end of the span. -/
structure Quoted (source : Text) (span : Span) : Prop where
  filled : span.start < span.stop
  first : ∃ c ∈ source[span.start]?, c = '\'' ∨ c = '"'
  last : ∃ c ∈ source[span.stop - 1]?, c = '\'' ∨ c = '"'

theorem solid_iff {source : Text} {span : Span} : span.Solid source ↔ span.start < span.stop ∧
    (source[span.stop - 1]?.any fun c => !isBlank c && c ≠ '\x7b') = true := by
  simp only [Option.any_eq_true, Bool.and_eq_true, Bool.not_eq_true', decide_eq_true_eq]
  exact ⟨fun h => ⟨h.1, h.2⟩, fun h => ⟨h.1, h.2⟩⟩

theorem quoted_iff {source : Text} {span : Span} : span.Quoted source ↔ span.start < span.stop ∧
    (source[span.start]?.any fun c => c = .char '\'' || c = .char '"') = true ∧
    (source[span.stop - 1]?.any fun c => c = .char '\'' || c = .char '"') = true := by
  simp only [Option.any_eq_true, Bool.or_eq_true, decide_eq_true_eq]
  exact ⟨fun h => ⟨h.1, h.2, h.3⟩, fun h => ⟨h.1, h.2.1, h.2.2⟩⟩

-- A character is looked at where it stands; the search for any such character would go through all of them.
instance (source : Text) (span : Span) : Decidable (span.Solid source) := decidable_of_iff' _ solid_iff

instance (source : Text) (span : Span) : Decidable (span.Quoted source) := decidable_of_iff' _ quoted_iff

end Span

namespace Slot

variable {source marker : Text} {member member' span span' literal : Span} {offset i : Nat} {c : CodePoint}

theorem beforeBlanks_le : beforeBlanks source offset ≤ offset := by
  have shorter := (List.dropWhile_suffix (l := (source.take offset).reverse) isBlank).length_le
  rw [List.length_reverse, List.length_take] at shorter
  rw [beforeBlanks]
  omega

theorem blankFrom_beforeBlanks : source.BlankFrom (beforeBlanks source offset) offset := by
  intro k c start stop found
  -- read backwards, the blanks come first
  have whole : source.take offset = ((source.take offset).reverse.dropWhile isBlank).reverse ++
      ((source.take offset).reverse.takeWhile isBlank).reverse := by
    rw [← List.reverse_append, List.takeWhile_append_dropWhile, List.reverse_reverse]
  rw [← List.getElem?_take_of_lt stop, whole, List.getElem?_append_right (by simpa [beforeBlanks] using start)]
    at found
  have mem := List.mem_reverse.mp (List.mem_of_getElem? found)
  exact List.mem_takeWhile_imp mem

theorem blankFrom_afterBlanks : source.BlankFrom offset (afterBlanks source offset) := by
  intro k c start stop found
  have inside : k - offset < ((source.drop offset).takeWhile isBlank).length := by
    rw [afterBlanks] at stop
    omega
  have split := List.takeWhile_append_dropWhile (p := isBlank) (l := source.drop offset)
  rw [← Nat.add_sub_cancel' start, ← List.getElem?_drop, ← split, List.getElem?_append_left inside] at found
  exact List.mem_takeWhile_imp (List.mem_of_getElem? found)

/-- The parts of a slot's span: the marker and the opening, blanks up to the member, blanks behind it and the
closing brace. -/
theorem exists_of_span? (found : span? source marker member = some span) :
    ∃ opening closing, span.start + marker.length + 2 = opening ∧ span.stop = closing + 1 ∧
      source.slice span.start opening = marker ++ [.char '$', .char '\x7b'] ∧
      opening ≤ member.start ∧ source.BlankFrom opening member.start ∧
      member.stop ≤ closing ∧ source.BlankFrom member.stop closing ∧ source[closing]? = some (.char '\x7d') := by
  refine ⟨beforeBlanks source member.start, afterBlanks source member.stop, ?_⟩
  simp only [span?, Bool.and_eq_true, decide_eq_true_eq, beq_iff_eq, Option.ite_none_right_eq_some,
    Option.some.injEq] at found
  obtain ⟨⟨⟨⟨⟨two, opens⟩, closes⟩, room⟩, marked⟩, rfl⟩ := found
  refine ⟨by dsimp only; omega, rfl, ?_, beforeBlanks_le, blankFrom_beforeBlanks, Nat.le_add_right _ _,
    blankFrom_afterBlanks, closes⟩
  rw [← Text.slice_append (Nat.sub_le _ _) (Nat.sub_le _ _), marked, opens]

theorem brace_of_opens {start opening : Nat} (first : start + marker.length + 2 = opening)
    (opens : source.slice start opening = marker ++ [.char '$', .char '\x7b']) :
    source[opening - 1]? = some (.char '\x7b') := by
  have inside : start + (marker.length + 1) < opening := by omega
  have place : opening - 1 = start + (marker.length + 1) := by omega
  rw [place, ← Text.getElem?_slice inside, opens]
  simp

theorem front_of_span? (found : span? source marker member = some span) (start : span.start ≤ i)
    (stop : i < member.start) (here : source[i]? = some c) :
    c ∈ marker ++ [.char '$', .char '\x7b'] ∨ isBlank c = true := by
  obtain ⟨opening, closing, -, -, opens, -, blanks, -⟩ := exists_of_span? found
  by_cases before : i < opening
  · left
    rw [← opens]
    exact Text.mem_slice start before here
  · right
    exact blanks i c (Nat.not_lt.mp before) stop here

theorem back_of_span? (found : span? source marker member = some span) (start : member.stop ≤ i)
    (stop : i < span.stop) (here : source[i]? = some c) : isBlank c = true ∨ c = '\x7d' := by
  obtain ⟨opening, closing, -, last, -, -, -, -, blanks, closes⟩ := exists_of_span? found
  by_cases before : i < closing
  · exact .inl (blanks i c start before here)
  · obtain rfl : i = closing := by omega
    rw [closes] at here
    exact .inr (Option.some.inj here).symm

theorem span?_order (found : span? source marker member = some span) :
    span.start < member.start ∧ member.stop < span.stop := by
  obtain ⟨opening, closing, first, last, -, before, -, behind, -⟩ := exists_of_span? found
  constructor <;> omega

theorem span?_apart (first : span? source marker member = some span)
    (second : span? source marker member' = some span') (solid : member.Solid source)
    (free : .char '\x7d' ∉ marker) (apart : member.stop ≤ member'.start) : span.stop ≤ span'.start := by
  obtain ⟨opening, closing, -, last, -, -, -, behind, blanks, closes⟩ := exists_of_span? first
  obtain ⟨opening', closing', start', -, opens', before', blanks', -⟩ := exists_of_span? second
  have braced := brace_of_opens start' opens'
  -- the first member's last character is none of those between the later slot's opening brace and its member
  obtain ⟨c, end', solidChar, notBrace⟩ := solid.last
  have filled := solid.filled
  have early : member.stop < opening' := by
    rcases Nat.lt_or_ge (member.stop - 1) (opening' - 1) with less | more
    · omega
    · by_cases same : member.stop - 1 = opening' - 1
      · rw [same, braced] at end'
        exact absurd (Option.some.inj end').symm notBrace
      · have blank := blanks' (member.stop - 1) c (by omega) (by omega) end'
        rw [solidChar] at blank
        cases blank
  -- so the later slot's opening brace stands behind the member, where the blanks have ended
  have ended : closing < opening' := by
    by_contra later
    have blank := blanks (opening' - 1) '\x7b' (by omega) (by omega) braced
    revert blank
    decide
  by_contra overlaps
  have reached : span'.start ≤ closing := by omega
  have inside := Text.mem_slice reached ended closes
  rw [opens'] at inside
  simp [free] at inside

/-- A slot does not reach into a quoted span that its member is separate from. -/
theorem span?_separate_quoted (found : span? source marker member = some span)
    (quoted : literal.Quoted source) (free : .char '\'' ∉ marker ∧ .char '"' ∉ marker)
    (separate : member.Separate literal) : span.Separate literal := by
  have visible {c : CodePoint} (quote : c = '\'' ∨ c = '"') :
      c ∉ marker ++ [.char '$', .char '\x7b'] ∧ isBlank c = false ∧ c ≠ .char '\x7d' := by
    rw [List.mem_append, not_or]
    rcases quote with rfl | rfl
    · exact ⟨⟨free.1, by decide⟩, by decide, by decide⟩
    · exact ⟨⟨free.2, by decide⟩, by decide, by decide⟩
  have order := span?_order found
  have nonempty := quoted.filled
  rcases separate with before | behind
  · left
    obtain ⟨c, here, quote⟩ := quoted.first
    obtain ⟨-, solid, brace⟩ := visible quote
    by_contra reaches
    rcases back_of_span? found before (Nat.not_le.mp reaches) here with blank | closes
    · rw [solid] at blank
      cases blank
    · exact brace closes
  · right
    obtain ⟨c, here, quote⟩ := quoted.last
    obtain ⟨fresh, solid, -⟩ := visible quote
    by_contra reaches
    rcases front_of_span? found (by omega) (by omega) here with inside | blank
    · exact fresh inside
    · rw [solid] at blank
      cases blank

end Slot

end ClassMigration
