import Mathlib.Data.List.Forall2
import ClassMigration.Proofs.VisibleChange

/-! Where literals are edited. A reported range may be wider than its literal, or miss it. Each edit replaces what its
literal is written as, within the reported range. A literal whose value calls for an edit is left alone only where
it is not found, or in an attribute that spells its class in another way. -/
namespace ClassMigration

/-- The results of a list, each beside the element that gives it. -/
theorem forall₂_filterMap {α β : Type} {f : α → Option β} {p : α → Bool} {R : α → β → Prop} {l : List α}
    (given : ∀ a ∈ l, (f a).isSome = p a) (related : ∀ a ∈ l, ∀ b, f a = some b → R a b) :
    List.Forall₂ R (l.filter p) (l.filterMap f) := by
  induction l with
  | nil => exact .nil
  | cons a l ih =>
    obtain ⟨own, given⟩ := List.forall_mem_cons.mp given
    obtain ⟨relates, related⟩ := List.forall_mem_cons.mp related
    cases result : f a with
    | none =>
      rw [List.filterMap_cons_none result, List.filter_cons_of_neg (by rw [← own, result]; simp)]
      exact ih given related
    | some b =>
      rw [List.filterMap_cons_some result, List.filter_cons_of_pos (by rw [← own, result]; rfl)]
      exact .cons (relates b result) (ih given related)

namespace Text

theorem replaceEnding?_isSome_iff {text ending replacement : Text} :
    (text.replaceEnding? ending replacement).isSome ↔ ending ≠ [] ∧ ending <:+ text := by
  by_cases empty : ending = []
  · simp [replaceEnding?, empty]
  · rw [replaceEnding?, ← endsWith_iff]
    cases text.endsWith ending <;> simp [empty]

theorem find?_isSome_iff {text part : Text} : (text.find? part).isSome ↔ part <:+: text := by
  fun_induction find? text part with
  | case1 text opens => simpa using (startsWith_iff.mp opens).isInfix
  | case2 refused =>
    have notPrefix : ¬part <+: [] := mt startsWith_iff.mpr refused
    simpa using mt List.prefix_nil.mpr notPrefix
  | case3 c rest refused ih =>
    have notPrefix : ¬part <+: c :: rest := mt startsWith_iff.mpr refused
    rw [Option.isSome_map, ih, List.infix_cons_iff, or_iff_right notPrefix]

end Text

namespace Script.StringLiteral

variable {literal : StringLiteral} {source : Text} {span : Span}

theorem text_of_place? (found : literal.place? source = some span) : span.text source = literal.written := by
  have opens := literal.prefix_of_place? found
  rw [place?] at found
  split at found
  case isTrue same =>
    obtain rfl := Option.some.inj found
    exact same
  case isFalse =>
    obtain ⟨offset, -, rfl⟩ := Option.map_eq_some_iff.mp found
    exact Text.slice_eq_iff.mpr opens

theorem place?_isSome_iff : (literal.place? source).isSome ↔ literal.written <:+: literal.span.text source := by
  rw [place?]
  split
  case isTrue same => simp [same]
  case isFalse => rw [Option.isSome_map, Text.find?_isSome_iff]

end Script.StringLiteral

namespace Migration

open Script

/-- The text ends with a nested deprecated class; an empty one counts for nothing. -/
def EndsDeprecated (migration : Migration) (text : Text) : Prop :=
  ∃ entry ∈ migration.table.entries, migration.nesting ++ entry.oldToken ≠ [] ∧
    migration.nesting ++ entry.oldToken <:+ text

instance (migration : Migration) (text : Text) : Decidable (migration.EndsDeprecated text) :=
  inferInstanceAs (Decidable (∃ entry ∈ migration.table.entries, _))

variable {migration : Migration} {options : Options} {source : Text} {literal : StringLiteral}

theorem newValue?_isSome_iff {value : Text} :
    (migration.newValue? value).isSome ↔ migration.EndsDeprecated value := by
  simp only [newValue?, List.findSome?_isSome_iff, Text.replaceEnding?_isSome_iff, EndsDeprecated]

/-- The literal is edited: its value calls for it, it is found, and in an attribute its class is spelled out. -/
def Editable (migration : Migration) (source : Text) (literal : StringLiteral) : Prop :=
  migration.EndsDeprecated literal.value ∧ literal.written <:+: literal.span.text source ∧
    (literal.inAttribute = true → migration.EndsDeprecated (literal.written.drop 1).dropLast)

instance (migration : Migration) (source : Text) (literal : StringLiteral) :
    Decidable (migration.Editable source literal) := inferInstanceAs (Decidable (_ ∧ _ ∧ _))

theorem literalText?_isSome_iff {value : Text} : (migration.literalText? options literal value).isSome ↔
    (literal.inAttribute = true → migration.EndsDeprecated (literal.written.drop 1).dropLast) := by
  rw [← newValue?_isSome_iff, literalText?, editedWritten?]
  cases migration.newValue? (literal.written.drop 1).dropLast <;> cases literal.inAttribute <;> simp

theorem literalEdit?_isSome_iff :
    (migration.literalEdit? source options literal).isSome ↔ migration.Editable source literal := by
  rw [Editable, ← newValue?_isSome_iff, ← StringLiteral.place?_isSome_iff, literalEdit?]
  cases migration.newValue? literal.value with
  | none => simp
  | some value =>
    rw [← @literalText?_isSome_iff migration options literal value]
    cases literal.place? source with
    | none => simp
    | some span => cases text : migration.literalText? options literal value <;> simp [text]

/-- The edit replaces what the literal is written as, within the range that is reported for it. -/
structure Replaces (source : Text) (literal : StringLiteral) (edit : Edit) : Prop where
  start : literal.span.start ≤ edit.span.start
  order : edit.span.start ≤ edit.span.stop
  stop : edit.span.stop ≤ literal.span.stop
  written : edit.span.text source = literal.written

theorem replaces_of_literalEdit? {edit : Edit} (order : literal.span.start ≤ literal.span.stop)
    (made : migration.literalEdit? source options literal = some edit) : Replaces source literal edit := by
  have place := place?_of_literalEdit? made
  obtain ⟨start, ordered, stop⟩ := literal.place?_inside order place
  exact ⟨start, ordered, stop, literal.text_of_place? place⟩

/-- The edits of literals are those of the literals that can be edited, one for each and in their order, and each edit
replaces its literal. Where the value of a literal ends with a nested deprecated class, the literal gets no edit
exactly if it is not written in its reported range, or if it is an attribute and not written with such an end. -/
theorem literalEdits_exact (migration : Migration) (options : Options) (outline : Outline)
    (order : ∀ literal ∈ outline.strings, literal.span.start ≤ literal.span.stop) :
    List.Forall₂ (fun literal edit => migration.literalEdit? outline.source options literal = some edit ∧
        Replaces outline.source literal edit)
      (outline.strings.filter (migration.Editable outline.source)) (migration.literalEdits outline options) ∧
    ∀ literal ∈ outline.strings, migration.EndsDeprecated literal.value →
      (migration.literalEdit? outline.source options literal = none ↔
        ¬literal.written <:+: literal.span.text outline.source ∨
          literal.inAttribute = true ∧ ¬migration.EndsDeprecated (literal.written.drop 1).dropLast) := by
  constructor
  · have given : ∀ literal ∈ outline.strings, (migration.literalEdit? outline.source options literal).isSome =
        decide (migration.Editable outline.source literal) := by
      intro literal _
      rw [Bool.eq_iff_iff, literalEdit?_isSome_iff, decide_eq_true_iff]
    refine forall₂_filterMap given ?_
    intro literal mem edit made
    exact ⟨made, replaces_of_literalEdit? (order literal mem) made⟩
  · intro literal _ ends
    rw [← Option.not_isSome_iff_eq_none, literalEdit?_isSome_iff, Editable]
    simp only [ends, true_and, not_and_or, Classical.not_imp]

/-- A literal in a range that is too wide, one in a range that misses it, and an attribute with an entity for the
ampersand. -/
theorem literalEdits_exact_wide :
    let source := "x(\"&.MuiAlert-filledInfo\", <a b='&#38;.MuiAlert-filledInfo'/>)".codePoints
    let value := "&.MuiAlert-filledInfo".codePoints
    let wide : StringLiteral := ⟨value, "\"&.MuiAlert-filledInfo\"".codePoints, ⟨0, 27⟩, false⟩
    let missed : StringLiteral := ⟨value, "\"&.MuiAlert-filledInfo\"".codePoints, ⟨3, 60⟩, false⟩
    let encoded : StringLiteral := ⟨value, "'&#38;.MuiAlert-filledInfo'".codePoints, ⟨32, 59⟩, true⟩
    let outline : Outline := ⟨source, [], [], [wide, missed, encoded]⟩
    let edit : Edit := ⟨⟨2, 25⟩, "'&.MuiAlert-filled.MuiAlert-colorInfo'".codePoints⟩
    (∀ literal ∈ outline.strings, literal.span.start ≤ literal.span.stop) ∧
      alert.literalEdits outline ⟨.always .single, false⟩ = [edit] ∧ Replaces outline.source wide edit ∧
      alert.literalEdit? outline.source ⟨.always .single, false⟩ missed = none ∧
      alert.literalEdit? outline.source ⟨.always .single, false⟩ encoded = none := by
  intro source value wide missed encoded outline edit
  have order : ∀ literal ∈ outline.strings, literal.span.start ≤ literal.span.stop := by decide +kernel
  have edits : alert.literalEdits outline ⟨.always .single, false⟩ = [edit] := by decide +kernel
  have literals : outline.strings.filter (alert.Editable outline.source) = [wide] := by decide +kernel
  obtain ⟨replaced, refused⟩ := literalEdits_exact alert ⟨.always .single, false⟩ outline order
  rw [edits, literals] at replaced
  refine ⟨order, edits, (List.forall₂_cons.mp replaced).1.2, ?_, ?_⟩
  · have mem : missed ∈ outline.strings := List.mem_cons_of_mem wide List.mem_cons_self
    exact (refused missed mem (by decide +kernel)).mpr (.inl (by decide +kernel))
  · have mem : encoded ∈ outline.strings := List.mem_of_getElem? (rfl : outline.strings[2]? = some encoded)
    exact (refused encoded mem (by decide +kernel)).mpr (.inr (by decide +kernel))

end Migration

end ClassMigration
