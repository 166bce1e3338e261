import ClassMigration.Proofs.LiteralMeaning
import ClassMigration.Proofs.Script.Quoting
import ClassMigration.Proofs.Script.Sites
import ClassMigration.Proofs.ScriptSeparation
import ClassMigration.Proofs.SheetOrder
import ClassMigration.Proofs.ValueStability

/-! Edits that can be seen. Whatever is edited behind it, the first edit of a source leaves another text where it
begins: a slot does not open as a class does, a literal has another body, and a class another name. So an outcome
that counts edits has an output of its own. -/
namespace ClassMigration

theorem Quote.mark_injective : Function.Injective mark := by
  intro a b same
  cases a <;> cases b <;> first | rfl | cases same

/-- Two texts that are cut where a property of characters ends are cut in one place. -/
theorem eq_of_append_stop {p : CodePoint → Prop} {front front' back back' : Text}
    (same : front ++ back = front' ++ back') (all : ∀ c ∈ front, p c) (all' : ∀ c ∈ front', p c)
    (stops : ∀ c, back.head? = some c → ¬p c) (stops' : ∀ c, back'.head? = some c → ¬p c) :
    front = front' := by
  induction front generalizing front' with
  | nil =>
    cases front' with
    | nil => rfl
    | cons c front' =>
      obtain rfl : back = c :: (front' ++ back') := same
      exact absurd (all' c List.mem_cons_self) (stops c rfl)
  | cons c front ih =>
    cases front' with
    | nil =>
      obtain rfl : c :: (front ++ back) = back' := same
      exact absurd (all c List.mem_cons_self) (stops' c rfl)
    | cons d front' =>
      obtain ⟨rfl, others⟩ : c = d ∧ front ++ back = front' ++ back' := by simpa using same
      rw [ih others (fun e mem => all e (List.mem_cons_of_mem c mem))
        fun e mem => all' e (List.mem_cons_of_mem c mem)]

namespace Edit

variable {source out : Text} {edits : List Edit}

/-- If edits leave the source as it is, the first of them stands there with what is spliced in behind it. -/
theorem exists_of_applyAll_self (some : edits ≠ []) (kept : applyAll source edits = .ok source) :
    ∃ edit ∈ edits, ∃ rest later, later ⊆ edits ∧ splice source edit.span.stop later = .ok rest ∧
      edit.text ++ rest = source.drop edit.span.start := by
  rw [applyAll] at kept
  cases order : arranged edits with
  | nil =>
    have none : edits.length = 0 := by rw [← length_arranged, order]; rfl
    exact absurd (List.length_eq_zero_iff.mp none) some
  | cons edit later =>
    have among : ∀ e ∈ edit :: later, e ∈ edits := fun e mem => mem_arranged.mp (order ▸ mem)
    rw [order] at kept
    obtain ⟨-, rest, spliced, whole⟩ := splice_cons_ok.mp kept
    refine ⟨edit, among edit List.mem_cons_self, rest, later,
      fun e mem => among e (List.mem_cons_of_mem edit mem), spliced, ?_⟩
    have split : source.take edit.span.start ++ source.drop edit.span.start =
        source.slice 0 edit.span.start ++ (edit.text ++ rest) := by
      rw [List.take_append_drop, ← List.append_assoc]
      exact whole
    exact (List.append_cancel_left split).symm

/-- What is spliced in from a cursor on begins with the source's own character there, unless an edit begins
there. -/
theorem head?_splice {cursor : Nat} {d c : CodePoint} (opens : ∀ e ∈ edits, e.text.head? = some d)
    (spliced : splice source cursor edits = .ok out) (first : out.head? = some c) :
    c = d ∨ source[cursor]? = some c := by
  cases edits with
  | nil =>
    obtain rfl : source.drop cursor = out := by simpa [splice] using spliced
    exact .inr (by rwa [List.head?_drop] at first)
  | cons edit more =>
    obtain ⟨later, rest, -, rfl⟩ := splice_cons_ok.mp spliced
    cases between : source.slice cursor edit.span.start with
    | nil =>
      rw [between, List.nil_append, List.head?_append, opens edit List.mem_cons_self] at first
      exact .inl (Option.some.inj first).symm
    | cons e copied =>
      rw [between] at first
      have here : cursor + 0 < edit.span.start := by
        refine Nat.lt_of_le_of_ne later fun empty => ?_
        rw [Nat.add_zero] at empty
        rw [empty, Text.slice_self] at between
        cases between
      have own := Text.getElem?_slice (s := source) here
      rw [between, Nat.add_zero] at own
      exact .inr (own.symm.trans first)

end Edit

/-- The status says whether the output is another text than the source, and so does the count of edits. -/
structure Outcome.Truthful (outcome : Outcome) (source : Text) : Prop where
  changed : outcome.status = .changed ↔ outcome.output ≠ source
  counted : outcome.output ≠ source ↔ 0 < outcome.edits

theorem mapError_eq_ok {ε ε' α : Type} {f : ε → ε'} {result : Except ε α} {a : α} :
    result.mapError f = .ok a ↔ result = .ok a := by
  cases result <;> simp [Except.mapError]

theorem Outcome.truthful_of_ofEdits {source : Text} {edits : List Edit} {outcome : Outcome}
    (visible : edits ≠ [] → Edit.applyAll source edits ≠ .ok source)
    (made : Outcome.ofEdits source edits = .ok outcome) : outcome.Truthful source := by
  rw [ofEdits] at made
  split at made
  · cases made
    exact ⟨iff_of_false (by simp [unchanged]) (absurd rfl), iff_of_false (absurd rfl) (Nat.lt_irrefl 0)⟩
  · next isSome =>
    have some : edits ≠ [] := fun none => isSome (List.isEmpty_iff.mpr none)
    cases applied : Edit.applyAll source edits with
    | error =>
      rw [applied] at made
      cases made
    | ok output =>
      rw [applied] at made
      cases made
      have other : output ≠ source := fun same => visible some (by rw [applied, same])
      exact ⟨iff_of_true rfl other, iff_of_true other (List.length_pos_iff.mpr some)⟩

namespace Deprecation.Table

variable {table : Table} {entry : Deprecation}

theorem not_isKeyChar_dot : ¬isKeyChar '.' := by decide

/-- A new token begins with the class of a key that is not deprecated. What follows begins with another dot. -/
theorem Keyed.newToken_eq (keyed : table.Keyed) (sound : table.problems = []) (mem : entry ∈ table.entries) :
    ∃ name more, entry.newToken = .char '.' :: (name ++ more) ∧ name ≠ [] ∧ (∀ c ∈ name, isKeyChar c) ∧
      (∀ c, more.head? = some c → c = '.') ∧ table.withName? name = none := by
  have some := newKeys_ne_nil sound mem
  obtain ⟨stem, oldKey, newKeys, rfl, stemChars, chars⟩ := keyed entry mem
  have charsOf : ∀ key ∈ newKeys, ∀ c ∈ className stem key, isKeyChar c := fun key own =>
    isKeyChar_className stemChars (chars key (List.mem_cons_of_mem oldKey own))
  have names := newNames_ofKeys (fun key own dot => not_isKeyChar_dot (charsOf key own '.' dot)) oldKey
  obtain ⟨key, keys, rfl⟩ := List.exists_cons_of_ne_nil some
  refine ⟨className stem key, keys.flatMap (token stem), rfl, by simp [className],
    charsOf key List.mem_cons_self, ?_, withName?_newName sound mem ?_⟩
  · intro c first
    cases keys with
    | nil => cases first
    | cons => exact (Option.some.inj first).symm
  · rw [names]
    exact List.mem_cons_self

end Deprecation.Table

namespace Script

/-- A literal is written as what it stands for: outside attributes as the lexer reads it, and in an attribute
between two quotes of a kind that stands nowhere else in it. -/
def StringLiteral.Faithful (literal : StringLiteral) : Prop :=
  if literal.inAttribute then
    ∃ quote : Quote, ∃ body, literal.written = quote.mark :: (body ++ [quote.mark]) ∧ quote.mark ∉ body
  else ∃ quote octal, Quotation.Denotes quote literal.written literal.value octal

def Outline.Faithful (outline : Outline) : Prop := ∀ literal ∈ outline.strings, literal.Faithful

theorem StringLiteral.prefix_of_place? {literal : StringLiteral} {source : Text} {span : Span}
    (found : literal.place? source = some span) : literal.written <+: source.drop span.start := by
  have opens : literal.span.text source <+: source.drop literal.span.start := by
    rw [Span.text, Text.slice, List.drop_take]
    exact List.take_prefix _ _
  rw [place?] at found
  split at found
  case isTrue same =>
    obtain rfl := Option.some.inj found
    rwa [same] at opens
  case isFalse =>
    obtain ⟨offset, inside, rfl⟩ := Option.map_eq_some_iff.mp found
    obtain ⟨front, back, whole, rfl⟩ := Text.find?_eq_some inside
    obtain ⟨behind, same⟩ := opens
    refine ⟨back ++ behind, ?_⟩
    rw [← List.drop_drop, ← same, whole]
    simp

namespace Quotation

variable {quote : Quote}

theorem bareQuote?_flatMap_writtenAs (quote : Quote) (value rest : Text) :
    Text.bareQuote? quote.mark (value.flatMap (writtenAs quote) ++ quote.mark :: rest) =
      some (value.flatMap (writtenAs quote)).length := by
  induction value with
  | nil => rw [List.flatMap_nil, List.nil_append, Text.bareQuote?_cons (mark_ne_backslash quote), if_pos rfl]; rfl
  | cons c value ih =>
    have escaped : ∀ d, Text.bareQuote? quote.mark ([.char '\\', d] ++ (value.flatMap (writtenAs quote) ++
        quote.mark :: rest)) = some ([.char '\\', d] ++ value.flatMap (writtenAs quote)).length := by
      intro d
      rw [List.cons_append, List.singleton_append, Text.bareQuote?, ih]
      rfl
    rw [List.flatMap_cons, List.append_assoc, writtenAs]
    split
    · exact escaped c
    · next plain =>
      split
      · exact escaped 'n'
      · split
        · exact escaped 'r'
        · rw [List.singleton_append, Text.bareQuote?_cons (mt .inl plain), if_neg (mt .inr plain), ih]
          rfl

theorem eq_of_bareQuote? {body body' rest rest' : Text}
    (same : body ++ quote.mark :: rest = body' ++ quote.mark :: rest')
    (ends : Text.bareQuote? quote.mark (body ++ quote.mark :: rest) = some body.length)
    (ends' : Text.bareQuote? quote.mark (body' ++ quote.mark :: rest') = some body'.length) : body = body' := by
  rw [same, ends'] at ends
  exact (List.append_inj same (Option.some.inj ends).symm).1

end Quotation

end Script

open Script

namespace Migration

variable {migration : Migration} {source rest : Text} {options : Options} {edit : Edit}

/-- The edit of a slot puts a class where the slot opened. -/
theorem visible_of_memberEdit? {outline : Outline} {member : Member} (nested : migration.nesting = [.char '&'])
    (keyed : migration.table.Keyed) (sound : migration.table.problems = [])
    (made : migration.memberEdit? outline member = some edit) :
    edit.text ++ rest ≠ outline.source.drop edit.span.start := by
  intro same
  obtain ⟨-, found⟩ := span?_of_memberEdit? made
  obtain ⟨opening, -, first, -, opens, -⟩ := Slot.exists_of_span? found
  have marker : migration.marker = [.char '&', .char '.'] := by rw [Migration.marker, nested]; rfl
  rw [marker] at first opens
  have dollar : outline.source[edit.span.start + 2]? = some (.char '$') := by
    rw [← Text.getElem?_slice (j := opening) (by simp at first; omega), opens]
    rfl
  obtain ⟨entry, mem, text⟩ := entry_of_memberEdit? made
  obtain ⟨name, more, token, filled, chars, -⟩ := keyed.newToken_eq sound mem
  obtain ⟨c, name, rfl⟩ := List.exists_cons_of_ne_nil filled
  have third := congrArg (·[2]?) same
  rw [text, nested, token] at third
  obtain rfl : c = '$' := by simpa [dollar] using third
  exact absurd (chars '$' List.mem_cons_self) (by decide)

theorem exists_entry_of_newValue? {value new : Text} (nested : migration.nesting = [.char '&'])
    (made : migration.newValue? value = some new) : ∃ entry ∈ migration.table.entries, ∃ front,
      value = front ++ .char '&' :: entry.oldToken ∧ new = front ++ .char '&' :: entry.newToken := by
  obtain ⟨entry, mem, replaced⟩ := List.exists_of_findSome?_eq_some made
  rw [nested] at replaced
  obtain ⟨front, old, new⟩ := Text.replaceEnding?_eq_some replaced
  exact ⟨entry, mem, front, old, new⟩

theorem newValue?_ne {value new : Text} (keyed : migration.table.Keyed)
    (sound : migration.table.problems = []) (made : migration.newValue? value = some new) : value ≠ new := by
  rintro rfl
  rw [newValue?_stable_of_keyed keyed sound made] at made
  cases made

section

open Quotation

variable {quote : Quote} {inner value : Text} {octal : Bool}

/-- A body edited as it is written is spelled again, for whatever value. -/
theorem exists_spells_of_newValue? {body : Text} (nested : migration.nesting = [.char '&'])
    (keyed : migration.table.Keyed) (spells : Spells quote.mark inner value octal)
    (edited : migration.newValue? inner = some body) : ∃ value', Spells quote.mark body value' octal := by
  obtain ⟨entry, mem, front, split, rfl⟩ := exists_entry_of_newValue? nested edited
  have plain : ∀ c ∈ entry.oldToken ++ entry.newToken, Plain c := fun c own =>
    plain_of_isKeyChar (keyed.chars mem c own)
  obtain ⟨start, -, others⟩ := spells.exchange (fun c own => plain c (List.mem_append_left _ own)) split
  exact ⟨_, others entry.newToken fun c own => plain c (List.mem_append_right _ own)⟩

theorem literalText?_ne_of_spells {literal : StringLiteral} {new text more : Text}
    (nested : migration.nesting = [.char '&']) (keyed : migration.table.Keyed)
    (sound : migration.table.problems = []) (script : literal.inAttribute = false)
    (written : literal.written = quote.mark :: (inner ++ [quote.mark]))
    (spells : Spells quote.mark inner literal.value octal) (made : migration.newValue? literal.value = some new)
    (isText : migration.literalText? options literal new = some text) :
    text ++ rest ≠ literal.written ++ more := by
  intro same
  have own : Quote.ofWritten literal.written = quote := by rw [written, Quote.ofWritten_mark]
  have unquoted : (literal.written.drop 1).dropLast = inner := by simp [written]
  -- the first character tells the quote, so the literal keeps its own
  have kept : ∀ {used : Quote} {body : Text}, text = used.mark :: (body ++ [used.mark]) →
      used = quote ∧ body ++ quote.mark :: rest = inner ++ quote.mark :: more := by
    rintro used body rfl
    rw [written] at same
    obtain ⟨marks, same⟩ := List.cons.inj same
    obtain rfl : used = quote := Quote.mark_injective marks
    exact ⟨rfl, by simpa using same⟩
  have ends := spells.bareQuote? more
  cases asWritten : migration.newValue? inner with
  | some body =>
    obtain ⟨value', respelled⟩ := exists_spells_of_newValue? nested keyed spells asWritten
    have edited : migration.editedWritten? options literal = _ :=
      editedWritten?_of_spells script written asWritten respelled
    rw [literalText?, edited] at isText
    obtain ⟨used, same⟩ := kept (Option.some.inj isText).symm
    rw [used, respelled.requotedBody_own] at same
    have again : body = inner := eq_of_bareQuote? same (respelled.bareQuote? rest) ends
    exact newValue?_ne keyed sound asWritten again.symm
  | none =>
    have unedited : migration.editedWritten? options literal = none := by
      rw [editedWritten?, unquoted, asWritten, Option.map_none]
    rw [literalText?, unedited, script] at isText
    obtain rfl := Option.some.inj isText
    obtain ⟨used, same⟩ := kept (quoted_eq new (literalQuote options literal))
    rw [used] at same
    have again := eq_of_bareQuote? same (bareQuote?_flatMap_writtenAs quote new rest) ends
    rw [← again] at spells
    exact newValue?_ne keyed sound made (spells_flatMap_writtenAs_iff.mp spells).1

end

/-- In an attribute a literal keeps its quote, which ends the new body where it ended the old one. -/
theorem literalText?_ne_of_attribute {literal : StringLiteral} {quote : Quote} {body new text more : Text}
    (nested : migration.nesting = [.char '&']) (keyed : migration.table.Keyed)
    (sound : migration.table.problems = []) (attributed : literal.inAttribute = true)
    (written : literal.written = quote.mark :: (body ++ [quote.mark])) (free : quote.mark ∉ body)
    (isText : migration.literalText? options literal new = some text) :
    text ++ rest ≠ literal.written ++ more := by
  intro same
  have own : literalQuote options literal = quote := by
    rw [literalQuote, attributed, written, Quote.ofWritten_mark]
    cases options.quote.quote? <;> rfl
  have unquoted : (literal.written.drop 1).dropLast = body := by simp [written]
  cases edited : migration.newValue? body with
  | none =>
    rw [literalText?, editedWritten?, unquoted, edited, attributed] at isText
    cases isText
  | some body' =>
    rw [literalText?, editedWritten?, unquoted, edited, own, written, Quote.ofWritten_mark] at isText
    obtain rfl := Option.some.inj isText
    obtain ⟨entry, mem, front, old, new⟩ := exists_entry_of_newValue? nested edited
    have free' : ∀ c ∈ body', c ≠ quote.mark := by
      have plain : ∀ c ∈ .char '&' :: entry.newToken, Quotation.Plain c := by
        refine List.forall_mem_cons.mpr ⟨by decide, fun c own => ?_⟩
        exact plain_of_isKeyChar (keyed.chars mem c (List.mem_append_right _ own))
      intro c isIn
      rw [new] at isIn
      rcases List.mem_append.mp isIn with before | behind
      · rintro rfl
        exact free (old ▸ List.mem_append_left _ before)
      · exact (plain c behind).ne_mark quote
    have bodies : body' ++ quote.mark :: rest = body ++ quote.mark :: more := by
      rw [written] at same
      simpa using same
    have again : body' = body := by
      refine eq_of_append_stop (p := (· ≠ quote.mark)) bodies free' ?_ ?_ ?_
      · rintro c isIn rfl
        exact free isIn
      · rintro c ⟨⟩ differs
        exact differs rfl
      · rintro c ⟨⟩ differs
        exact differs rfl
    exact newValue?_ne keyed sound edited again.symm

/-- The edit of a literal leaves another body, or another quote, where the literal stood. -/
theorem visible_of_literalEdit? {literal : StringLiteral} (nested : migration.nesting = [.char '&'])
    (keyed : migration.table.Keyed) (sound : migration.table.problems = []) (faithful : literal.Faithful)
    (made : migration.literalEdit? source options literal = some edit) :
    edit.text ++ rest ≠ source.drop edit.span.start := by
  simp only [literalEdit?, Option.bind_eq_bind, Option.bind_eq_some_iff] at made
  obtain ⟨new, isNew, span, place, text, isText, same⟩ := made
  cases same
  obtain ⟨more, behind⟩ := literal.prefix_of_place? place
  rw [← behind]
  rw [StringLiteral.Faithful] at faithful
  cases kind : literal.inAttribute with
  | true =>
    rw [kind, if_pos rfl] at faithful
    obtain ⟨quote, body, written, free⟩ := faithful
    exact literalText?_ne_of_attribute nested keyed sound kind written free isText
  | false =>
    rw [kind, if_neg Bool.false_ne_true] at faithful
    obtain ⟨quote, octal, valid⟩ := faithful
    obtain ⟨inner, written, spells⟩ := Quotation.denotes_iff.mp valid
    exact literalText?_ne_of_spells nested keyed sound kind written spells isNew isText

open Stylesheet

section

variable {sheet : Sheet} {m : Mention}

/-- An edited class stands in the source with its name, and no key goes on behind it. -/
theorem cut_of_classEdit? (keyed : migration.table.Keyed) (spelled : m.Spelled [] (normalized source))
    (edited : migration.classEdit? source (m.part (.ofSource source)) = some edit) :
    source.drop edit.span.start = .char '.' :: (m.name ++ source.drop edit.span.stop) ∧
      (∀ c ∈ m.name, Deprecation.isKeyChar c) ∧
      ∀ c, source[edit.span.stop]? = some c → ¬Deprecation.isKeyChar c := by
  obtain ⟨entry, named, text, same⟩ := classEdit?_eq_some.mp edited
  obtain ⟨mem, own⟩ : entry ∈ migration.table.entries ∧ entry.oldName = m.name :=
    Deprecation.Table.withName?_eq_some_iff.mp named
  obtain ⟨token, chars⟩ : entry.oldToken = .char '.' :: m.name ∧ ∀ c ∈ m.name, Deprecation.isKeyChar c := by
    rw [← own]
    obtain ⟨stem, oldKey, newKeys, rfl, stemChars, chars⟩ := keyed entry mem
    exact ⟨rfl, Deprecation.Table.isKeyChar_className stemChars (chars oldKey List.mem_cons_self)⟩
  have cut : source.drop edit.span.start = .char '.' :: (m.name ++ source.drop edit.span.stop) := by
    have order : edit.span.start ≤ edit.span.stop := by
      rw [same]
      exact Nat.le_add_right_of_le (Nat.le_succ _)
    rw [← Text.slice_append_drop order, same]
    rw [Span.text, token] at text
    rw [text, List.cons_append]
  refine ⟨cut, chars, fun c found char => ?_⟩
  obtain ⟨rest, behind, name⟩ := spelled.in_source
  have opens : source.drop edit.span.start = .char '.' :: rest := by
    rw [same]
    exact behind
  obtain rfl : rest = m.name ++ source.drop edit.span.stop := (List.cons.inj (opens.symm.trans cut)).2
  obtain ⟨after, next⟩ : ∃ after, source.drop edit.span.stop = c :: after := by
    rw [← List.head?_drop] at found
    exact List.head?_eq_some_iff.mp found
  -- the name would go on with the character
  rw [next, normalized_append_of_untouched fun d isIn => untouched_of_char (chars d isIn),
    normalized_cons_of_untouched (untouched_of_char char), List.length_append,
    Scanner.name_append fun d isIn => isNameChar_of_char (chars d isIn)] at name
  have longer := congrArg List.length name
  rw [List.length_cons, Scanner.name, if_pos (isNameChar_of_char char)] at longer
  simp at longer

theorem visible_of_mem_edits {migrations : List Migration} {later : List Edit}
    (keyed : ∀ migration ∈ migrations, migration.table.Keyed)
    (sound : ∀ migration ∈ migrations, migration.table.problems = [])
    (read : Sheet.read source = .ok sheet) (mem : edit ∈ sheet.edits migrations)
    (others : later ⊆ sheet.edits migrations) (spliced : Edit.splice source edit.span.stop later = .ok rest) :
    edit.text ++ rest ≠ source.drop edit.span.start := by
  intro same
  obtain ⟨ms, -, spelled, made⟩ := Sheet.exists_row read
  have source_eq := source_of_read read
  have dotted : ∀ e ∈ sheet.edits migrations, e.text.head? = some (.char '.') := by
    intro e isEdit
    obtain ⟨c, -, other, isOther, edited⟩ := exists_class_of_mem_edits isEdit
    obtain ⟨entry, named, -, rfl⟩ := classEdit?_eq_some.mp edited
    obtain ⟨name, more, token, -⟩ :=
      (keyed other isOther).newToken_eq (sound other isOther) (Deprecation.Table.withName?_eq_some_iff.mp named).1
    rw [token]
    rfl
  obtain ⟨c, isClass, migration, isMigration, edited⟩ := exists_class_of_mem_edits mem
  rw [source_eq] at edited
  rw [made] at isClass
  obtain ⟨m, isMention, rfl⟩ := List.mem_map.mp isClass
  obtain ⟨cut, chars, stops⟩ := cut_of_classEdit? (keyed migration isMigration) (spelled m isMention) edited
  obtain ⟨entry, named, -, text⟩ := classEdit?_eq_some.mp edited
  obtain ⟨name, more, token, -, chars', stops', fresh⟩ := (keyed migration isMigration).newToken_eq
    (sound migration isMigration) (Deprecation.Table.withName?_eq_some_iff.mp named).1
  have texts : name ++ (more ++ rest) = m.name ++ source.drop edit.span.stop := by
    rw [cut] at same
    have : edit.text = .char '.' :: (name ++ more) := by rw [text]; exact token
    rw [this] at same
    simpa using same
  have names : name = m.name := by
    refine eq_of_append_stop texts chars' chars ?_ ?_
    · intro c first
      cases more with
      | nil =>
        rcases Edit.head?_splice (fun e isEdit => dotted e (others isEdit)) spliced first with rfl | here
        · exact Deprecation.Table.not_isKeyChar_dot
        · exact stops c here
      | cons d more =>
        rw [stops' c first]
        exact Deprecation.Table.not_isKeyChar_dot
    · intro c first
      rw [List.head?_drop] at first
      exact stops c first
  rw [names] at fresh
  change migration.table.withName? m.name = _ at named
  rw [fresh] at named
  cases named

end

theorem applyAll_scriptEdits_ne {outline : Outline} (nested : migration.nesting = [.char '&'])
    (keyed : migration.table.Keyed) (sound : migration.table.problems = []) (faithful : outline.Faithful)
    (some : migration.scriptEdits outline options ≠ []) :
    Edit.applyAll outline.source (migration.scriptEdits outline options) ≠ .ok outline.source := by
  intro kept
  obtain ⟨edit, mem, rest, later, -, -, same⟩ := Edit.exists_of_applyAll_self some kept
  rw [scriptEdits_eq_filterMap] at mem
  rcases List.mem_append.mp mem with slot | literal
  · obtain ⟨member, -, made⟩ := List.mem_filterMap.mp slot
    exact visible_of_memberEdit? nested keyed sound made same
  · obtain ⟨literal, isLiteral, made⟩ := List.mem_filterMap.mp literal
    exact visible_of_literalEdit? nested keyed sound (faithful literal isLiteral) made same

theorem editSheet_truthful {migrations : List Migration} {file : Option Text} {outcome : Outcome}
    (keyed : ∀ migration ∈ migrations, migration.table.Keyed)
    (sound : ∀ migration ∈ migrations, migration.table.problems = [])
    (made : editSheet migrations source file = .ok outcome) : outcome.Truthful source := by
  cases read : Sheet.read source with
  | error fault =>
    rw [editSheet, read] at made
    cases made
  | ok sheet =>
    rw [editSheet_of_read read] at made
    have visible : sheet.edits migrations ≠ [] →
        Edit.applyAll source (sheet.edits migrations) ≠ .ok source := by
      intro some kept
      obtain ⟨edit, mem, rest, later, others, spliced, same⟩ := Edit.exists_of_applyAll_self some kept
      exact visible_of_mem_edits keyed sound read mem others spliced same
    exact Outcome.truthful_of_ofEdits visible (mapError_eq_ok.mp made)

/-- Where a migration has an outcome, its status is that of a change exactly if the output is another text than
the source, and that is so exactly if there are edits. -/
theorem outcomes_truthful (nested : migration.nesting = [.char '&']) (keyed : migration.table.Keyed)
    (sound : migration.table.problems = []) :
    (∀ outline options outcome, outline.Faithful → migration.editOutline outline options = .ok outcome →
      outcome.Truthful outline.source) ∧
    (∀ source options file outline outcome, Outline.read source = .ok outline → outline.Faithful →
      migration.editScript source options file = .ok outcome → outcome.Truthful source) ∧
    ∀ source file outcome, editSheet [migration] source file = .ok outcome → outcome.Truthful source := by
  have ofOutline : ∀ outline options outcome, outline.Faithful →
      migration.editOutline outline options = .ok outcome → outcome.Truthful outline.source := by
    intro outline options outcome faithful made
    exact Outcome.truthful_of_ofEdits (applyAll_scriptEdits_ne nested keyed sound faithful) made
  refine ⟨ofOutline, ?_, ?_⟩
  · intro source options file outline outcome read faithful made
    rw [editScript, read] at made
    change (migration.editOutline outline options).mapError Failure.overlap = .ok outcome at made
    rw [← Outline.source_of_read read]
    exact ofOutline outline options outcome faithful (mapError_eq_ok.mp made)
  · intro source file outcome made
    exact editSheet_truthful (by simpa using keyed) (by simpa using sound) made

/-- A literal that gets another quote, and a class of a stylesheet. -/
theorem outcomes_truthful_requoted :
    let literal : StringLiteral :=
      ⟨"&.MuiAlert-filledInfo".codePoints, "'&.MuiAlert-filledInfo'".codePoints, ⟨0, 23⟩, false⟩
    let outline : Outline := ⟨literal.written, [], [], [literal]⟩
    let sheet := ".MuiAlert-filledInfo\x7b\x7d".codePoints
    outline.Faithful ∧
      (∃ outcome, alert.editOutline outline ⟨.always .double, false⟩ = .ok outcome ∧
        outcome.edits = 1 ∧ outcome.Truthful outline.source) ∧
      ∃ outcome, editSheet [alert] sheet none = .ok outcome ∧ outcome.edits = 1 ∧ outcome.Truthful sheet := by
  intro literal outline sheet
  have faithful : outline.Faithful := by
    refine List.forall_mem_singleton.mpr ?_
    exact ⟨.single, false, rfl, ⟨[], 23, 1⟩, rfl, by decide +kernel⟩
  obtain ⟨ofOutline, -, ofSheet⟩ := outcomes_truthful rfl alert_fromKeys.keyed (by decide +kernel)
  refine ⟨faithful, ?_, ?_⟩
  · have one : (alert.editOutline outline ⟨.always .double, false⟩).toOption.map Outcome.edits = some 1 := by
      decide +kernel
    cases made : alert.editOutline outline ⟨.always .double, false⟩ with
    | error => rw [made] at one; cases one
    | ok outcome =>
      rw [made] at one
      exact ⟨outcome, rfl, Option.some.inj one, ofOutline _ _ _ faithful made⟩
  · have one : (editSheet [alert] sheet none).toOption.map Outcome.edits = some 1 := by decide +kernel
    cases made : editSheet [alert] sheet none with
    | error => rw [made] at one; cases one
    | ok outcome =>
      rw [made] at one
      exact ⟨outcome, rfl, Option.some.inj one, ofSheet _ _ _ made⟩

end Migration

end ClassMigration
