import ClassMigration.Proofs.NewValue
import ClassMigration.Proofs.Script.Requoting

/-! What edited literals mean. A literal that spells a deprecated class at its end is edited as it is
written: the new text is one literal again, in the quote that was asked for, and stands for the new value. -/
namespace ClassMigration.Migration

open Script (StringLiteral)
open Script.Quotation

variable {migration : Migration} {options : Options} {literal : StringLiteral} {entry : Deprecation}
  {quote : Quote} {octal : Bool}

theorem plain_of_isKeyChar {c : CodePoint} (char : c = '.' ∨ Deprecation.isKeyChar c) : Plain c := by
  refine ⟨?_, ?_, ?_, ?_⟩
  · rintro rfl; revert char; decide
  · rintro rfl; revert char; decide
  · rintro rfl; revert char; decide
  · rw [← Bool.not_eq_true]
    intro ends
    simp only [Script.endsLine, Bool.or_eq_true, beq_iff_eq] at ends
    rcases ends with ((rfl | rfl) | rfl) | rfl <;> revert char <;> decide

theorem literalQuote_eq (script : literal.inAttribute = false) :
    literalQuote options literal = options.quote.quote?.getD (.ofWritten literal.written) := by
  unfold literalQuote
  cases options.quote.quote? <;> simp [script]

/-- A body edited as it is written, where it is spelled in the literal's own quote. -/
theorem editedWritten?_of_spells {inner body value : Text} (script : literal.inAttribute = false)
    (written : literal.written = quote.mark :: (inner ++ [quote.mark]))
    (edited : migration.newValue? inner = some body) (spells : Spells quote.mark body value octal) :
    migration.editedWritten? options literal =
      some (body.requoted [(options.quote.quote?.getD quote).mark]) := by
  have own : Quote.ofWritten literal.written = quote := by rw [written, Quote.ofWritten_mark]
  have unquoted : (literal.written.drop 1).dropLast = inner := by simp [written]
  simp only [editedWritten?, literalQuote_eq script, own, unquoted, edited, Option.map_some,
    Option.some.injEq]
  split
  case isTrue same =>
    rw [same, Text.requoted, spells.requotedBody_own]
    rfl
  case isFalse => rfl

/-- A literal outside attributes whose body ends as written with a nested deprecated class gets one literal of
the quote asked for, or else of its own, which stands for the new value. -/
theorem literalEdit?_denotes (nested : migration.nesting = [.char '&']) (keyed : migration.table.Keyed)
    (script : literal.inAttribute = false) (valid : Denotes quote literal.written literal.value octal)
    (mem : entry ∈ migration.table.entries)
    (ending : .char '&' :: entry.oldToken <:+ (literal.written.drop 1).dropLast) :
    let used := options.quote.quote?.getD quote
    ∃ value inner, migration.newValue? literal.value = some value ∧
      (∀ source, migration.literalEdit? source options literal =
        (literal.place? source).map fun span => ⟨span, used.mark :: (inner ++ [used.mark])⟩) ∧
      Text.bareQuote? used.mark (inner ++ [used.mark]) = some inner.length ∧
      Denotes used (used.mark :: (inner ++ [used.mark])) value octal := by
  intro used
  obtain ⟨inner, written, spells⟩ := denotes_iff.mp valid
  obtain ⟨front, split⟩ : ∃ front, inner = front ++ .char '&' :: entry.oldToken := by
    obtain ⟨front, same⟩ := ending
    exact ⟨front, by rw [same]; simp [written]⟩
  have plain : ∀ c ∈ entry.oldToken ++ entry.newToken, Plain c :=
    fun c own => plain_of_isKeyChar (keyed.chars mem c own)
  obtain ⟨start, value, others⟩ := spells.exchange (fun c own => plain c (List.mem_append_left _ own)) split
  have respelled := others entry.newToken fun c own => plain c (List.mem_append_right _ own)
  have edited (text : Text) :
      migration.newValue? (text ++ .char '&' :: entry.oldToken) = some (text ++ .char '&' :: entry.newToken) := by
    simpa [nested] using newValue?_append keyed.dotted mem text
  have asWritten : migration.editedWritten? options literal = _ :=
    editedWritten?_of_spells script written (split ▸ edited front) respelled
  refine ⟨start ++ .char '&' :: entry.newToken, Text.requotedBody [used.mark] (front ++ .char '&' :: entry.newToken),
    value ▸ edited start, fun source => ?_, (respelled.requoted used).bareQuote? [],
    denotes_iff.mpr ⟨_, rfl, respelled.requoted used⟩⟩
  rw [literalEdit?, value, edited start]
  simp only [literalText?, asWritten]
  cases literal.place? source <;> rfl

/-- A literal with escapes of several kinds, moved from single into double quotes. -/
theorem literalEdit?_denotes_escapes :
    let literal : StringLiteral := ⟨"it's \"A\" &.MuiAlert-filledInfo".codePoints,
      "'it\\'s \"\\x41\\\" \\&.MuiAlert-filledInfo'".codePoints, ⟨0, 38⟩, false⟩
    let options : Options := ⟨.always .double, false⟩
    Denotes .single literal.written literal.value false ∧
      (∃ value inner, alert.newValue? literal.value = some value ∧
        (∀ source, alert.literalEdit? source options literal =
          (literal.place? source).map fun span => ⟨span, '"' :: (inner ++ [.char '"'])⟩) ∧
        Text.bareQuote? '"' (inner ++ [.char '"']) = some inner.length ∧
        Denotes .double ('"' :: (inner ++ [.char '"'])) value false) ∧
      alert.literalEdit? literal.written options literal =
        some ⟨⟨0, 38⟩, "\"it\\'s \\\"\\x41\\\" \\&.MuiAlert-filled.MuiAlert-colorInfo\"".codePoints⟩ := by
  intro literal options
  have valid : Denotes .single literal.written literal.value false :=
    ⟨rfl, ⟨[], 38, 1⟩, rfl, by decide +kernel⟩
  have mem : .ofKeys "MuiAlert".codePoints "filledInfo".codePoints ["filled".codePoints, "colorInfo".codePoints] ∈
      alert.table.entries := by decide +kernel
  exact ⟨valid, literalEdit?_denotes rfl alert_fromKeys.keyed rfl valid mem (by decide +kernel),
    by decide +kernel⟩

end ClassMigration.Migration
