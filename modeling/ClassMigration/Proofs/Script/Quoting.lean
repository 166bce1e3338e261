import ClassMigration.Proofs.Script.Requoting
import ClassMigration.SelectorLiteral

/-! Values written as literals. Each character is written on its own, and only the two line separators are
written as themselves although they end a line: a value without them is read back as it was, and a value with
one of them is no literal at all. -/
namespace ClassMigration

namespace Script.Quotation

/-- How a character of a value is written between quotes. -/
def writtenAs (quote : Quote) (c : CodePoint) : Text :=
  if c = '\\' ∨ c = quote.mark then ['\\', c]
  else if c = '\n' then [.char '\\', .char 'n']
  else if c = '\r' then [.char '\\', .char 'r']
  else [c]

variable {quote : Quote} {written value value' meaning : Text} {octal : Bool}
  {first c : CodePoint}

/-- The four replacements are one, since none of them writes what a later one replaces. -/
theorem quoted_eq (value : Text) (quote : Quote) :
    value.quoted [quote.mark] = quote.mark :: (value.flatMap (writtenAs quote) ++ [quote.mark]) := by
  have each (c : CodePoint) : ((if c = .char '\\' then [.char '\\', .char '\\'] else [c]).flatMap fun d =>
      (if d = quote.mark then [.char '\\', quote.mark] else [d]).flatMap fun d =>
        (if d = .char '\n' then [.char '\\', .char 'n'] else [d]).flatMap fun d =>
          if d = .char '\r' then [.char '\\', .char 'r'] else [d]) = writtenAs quote c := by
    by_cases isEscape : c = .char '\\'
    · subst isEscape
      cases quote <;> rfl
    by_cases isQuote : c = quote.mark
    · subst isQuote
      cases quote <;> rfl
    by_cases isFeed : c = '\n'
    · subst isFeed
      cases quote <;> rfl
    simp [writtenAs, isEscape, isQuote, isFeed]
  simp only [Text.quoted, Text.replace_singleton, List.flatMap_assoc, each]
  rfl

theorem spells_cons_iff (notEscape : c ≠ '\\') : Spells quote.mark (c :: written) value octal ↔
    c ≠ quote.mark ∧ endsLine c = false ∧ ∃ rest, value = c :: rest ∧ Spells quote.mark written rest octal := by
  constructor
  · intro spells
    cases spells with
    | plain _ notQuote inLine rest => exact ⟨notQuote, inLine, _, rfl, rest⟩
    | escaped => exact absurd rfl notEscape
  · rintro ⟨notQuote, inLine, rest, rfl, spells⟩
    exact .plain notEscape notQuote inLine spells

theorem spells_escape_iff (own : ∀ behind, Escape first [] behind meaning false) :
    Spells quote.mark ('\\' :: first :: written) value octal ↔
      ∃ rest, value = meaning ++ rest ∧ Spells quote.mark written rest octal := by
  constructor
  · intro spells
    generalize whole : .char '\\' :: first :: written = text at spells
    cases spells with
    | done => cases whole
    | plain notEscape => cases whole; exact absurd rfl notEscape
    | escaped spelled rest =>
      obtain ⟨-, same, split⟩ : True ∧ _ ∧ _ := ⟨trivial, List.cons.inj (List.cons.inj whole).2⟩
      subst same
      obtain ⟨rfl, rfl, rfl⟩ := spelled.alone own
      obtain rfl : written = _ := split
      exact ⟨_, rfl, by simpa using rest⟩
  · rintro ⟨rest, rfl, spells⟩
    simpa using Spells.escaped (own _) spells

theorem spells_writtenAs_iff : Spells quote.mark (writtenAs quote c ++ written) value octal ↔
    (c ≠ '\u2028' ∧ c ≠ '\u2029') ∧ ∃ rest, value = c :: rest ∧ Spells quote.mark written rest octal := by
  by_cases isMark : c = '\\' ∨ c = quote.mark
  · have symbol : c.isAlphanum = false ∧ endsLine c = false ∧ c ≠ '\u2028' ∧ c ≠ '\u2029' := by
      rcases isMark with rfl | rfl
      · decide
      · cases quote <;> decide
    obtain ⟨symbol, inLine, noSeparator⟩ := symbol
    rw [writtenAs, if_pos isMark]
    simpa [noSeparator] using spells_escape_iff fun behind => Escape.self behind symbol inLine
  by_cases isFeed : c = '\n'
  · subst isFeed
    rw [writtenAs, if_neg isMark, if_pos rfl]
    have own (behind : Text) : Escape 'n' [] behind [.char '\n'] false := .control (by simp [opensEscape]) rfl
    simpa using spells_escape_iff own
  by_cases isReturn : c = '\r'
  · subst isReturn
    rw [writtenAs, if_neg isMark, if_neg (by decide), if_pos rfl]
    have own (behind : Text) : Escape 'r' [] behind [.char '\r'] false := .control (by simp [opensEscape]) rfl
    simpa using spells_escape_iff own
  obtain ⟨notEscape, notQuote⟩ := not_or.mp isMark
  rw [writtenAs, if_neg isMark, if_neg isFeed, if_neg isReturn, List.singleton_append, spells_cons_iff notEscape]
  simp [notQuote, endsLine, isFeed, isReturn, and_assoc]

theorem spells_flatMap_writtenAs_iff : Spells quote.mark (value.flatMap (writtenAs quote)) value' octal ↔
    value' = value ∧ octal = false ∧ ∀ c ∈ value, c ≠ '\u2028' ∧ c ≠ '\u2029' := by
  induction value generalizing value' with
  | nil =>
    constructor
    · rintro ⟨⟩
      simp
    · rintro ⟨rfl, rfl, -⟩
      exact .done
  | cons c value ih =>
    simp only [List.flatMap_cons, spells_writtenAs_iff, ih, List.forall_mem_cons]
    constructor
    · rintro ⟨own, rest, rfl, rfl, rfl, others⟩
      exact ⟨rfl, rfl, own, others⟩
    · rintro ⟨rfl, rfl, own, others⟩
      exact ⟨own, value, rfl, rfl, rfl, others⟩

/-- A value written as a literal is one literal, without octal escapes, that stands for the value, unless it
holds a line separator or a paragraph separator: then it is none. -/
theorem denotes_quoted_iff : Denotes quote (value.quoted [quote.mark]) value' octal ↔
    value' = value ∧ octal = false ∧ ∀ c ∈ value, c ≠ '\u2028' ∧ c ≠ '\u2029' := by
  rw [denotes_iff, quoted_eq, ← @spells_flatMap_writtenAs_iff quote]
  simp

end Script.Quotation

namespace Migration

open Script.Quotation

/-- A literal outside attributes that cannot be edited as it is written gets its new value written anew, which
is one literal again exactly if no line or paragraph separator is in the value. -/
theorem literalText?_anew {migration : Migration} {options : Options} {literal : Script.StringLiteral}
    (script : literal.inAttribute = false) (unedited : migration.editedWritten? options literal = none)
    (value : Text) :
    let used := literalQuote options literal
    ∃ text, migration.literalText? options literal value = some text ∧
      ∀ value' octal, Denotes used text value' octal ↔
        value' = value ∧ octal = false ∧ ∀ c ∈ value, c ≠ '\u2028' ∧ c ≠ '\u2029' := by
  intro used
  refine ⟨value.quoted [used.mark], ?_, fun _ _ => denotes_quoted_iff⟩
  simp [literalText?, unedited, script, used]

end Migration

end ClassMigration
