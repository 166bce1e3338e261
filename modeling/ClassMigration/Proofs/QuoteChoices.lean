import ClassMigration.Proofs.Script.Quoting
import ClassMigration.Proofs.SlotReferents
import Mathlib.Data.List.Forall2

/-! What options choose. They choose the quotes of edited literals and which quotes are escaped in them. Which
sites of a script are edited, where, and how their classes are written does not depend on options. -/
namespace ClassMigration

namespace Text

/-- Two texts differ at most in backslashes directly before quotes. -/
inductive SameButEscapes : Text → Text → Prop
  | nil : SameButEscapes [] []
  | cons (c : CodePoint) {s t : Text} (rest : SameButEscapes s t) : SameButEscapes (c :: s) (c :: t)
  | left (quote : Quote) {s t : Text} (rest : SameButEscapes s t) :
      SameButEscapes ('\\' :: quote.mark :: s) (quote.mark :: t)
  | right (quote : Quote) {s t : Text} (rest : SameButEscapes s t) :
      SameButEscapes (quote.mark :: s) ('\\' :: quote.mark :: t)

namespace SameButEscapes

variable {s s' t t' : Text}

theorem refl (s : Text) : SameButEscapes s s := by
  induction s with
  | nil => exact .nil
  | cons c s ih => exact .cons c ih

theorem symm (same : SameButEscapes s t) : SameButEscapes t s := by
  induction same with
  | nil => exact .nil
  | cons c _ ih => exact .cons c ih
  | left quote _ ih => exact .right quote ih
  | right quote _ ih => exact .left quote ih

theorem append (same : SameButEscapes s t) (same' : SameButEscapes s' t') :
    SameButEscapes (s ++ s') (t ++ t') := by
  induction same with
  | nil => exact same'
  | cons c _ ih => exact .cons c ih
  | left quote _ ih => exact .left quote ih
  | right quote _ ih => exact .right quote ih

end SameButEscapes

/-- A body moved into another quote gets backslashes before bare quotes, and nothing else. -/
theorem sameButEscapes_requotedBody (quote : Quote) (body : Text) :
    SameButEscapes body (requotedBody [quote.mark] body) := by
  fun_induction requotedBody [quote.mark] body with
  | case1 => exact .nil
  | case2 => exact .refl _
  | case3 c rest ih => exact .cons _ (.cons c ih)
  | case4 c rest _ _ isQuote ih =>
    obtain rfl : c = quote.mark := by simpa using isQuote
    exact .right quote ih
  | case5 c rest _ _ _ ih => exact .cons c ih

/-- Two texts are in quotes, and differ at most in these quotes and in backslashes directly before quotes. -/
def SameButQuotes (text text' : Text) : Prop :=
  ∃ quote quote' : Quote, ∃ inner inner', text = quote.mark :: (inner ++ [quote.mark]) ∧
    text' = quote'.mark :: (inner' ++ [quote'.mark]) ∧ SameButEscapes inner inner'

end Text

open Script Text

namespace Script.Quotation

/-- The choice of a quote changes how quotes are written, and how nothing else is. -/
theorem sameButEscapes_writtenAs (quote quote' : Quote) (c : CodePoint) :
    SameButEscapes (writtenAs quote c) (writtenAs quote' c) := by
  by_cases isQuote : c = quote.mark ∨ c = quote'.mark
  · -- one of the two may escape the quote where the other does not
    rcases isQuote with rfl | rfl <;> cases quote <;> cases quote' <;>
      first
      | exact .refl _
      | exact .left _ .nil
      | exact .right _ .nil
  · obtain ⟨notOwn, notOther⟩ := not_or.mp isQuote
    have same : writtenAs quote c = writtenAs quote' c := by simp only [writtenAs, notOwn, notOther]
    rw [same]
    exact .refl _

theorem sameButQuotes_quoted (quote quote' : Quote) (value : Text) :
    SameButQuotes (value.quoted [quote.mark]) (value.quoted [quote'.mark]) := by
  refine ⟨quote, quote', _, _, quoted_eq value quote, quoted_eq value quote', ?_⟩
  induction value with
  | nil => exact .nil
  | cons c value ih => exact (sameButEscapes_writtenAs quote quote' c).append ih

end Script.Quotation

namespace Migration

variable {migration : Migration} {first second : Options} {literal : StringLiteral}

theorem literalQuote_congr (same : first.quote.quote? = second.quote.quote?) :
    literalQuote first literal = literalQuote second literal := by
  rw [literalQuote, literalQuote, same]

theorem literalText?_congr (same : literalQuote first literal = literalQuote second literal) (value : Text) :
    migration.literalText? first literal value = migration.literalText? second literal value := by
  rw [literalText?, literalText?, editedWritten?, editedWritten?, same]

theorem literalEdit?_congr (same : literalQuote first literal = literalQuote second literal) (source : Text) :
    migration.literalEdit? source first literal = migration.literalEdit? source second literal := by
  simp only [literalEdit?, literalText?_congr same]

/-- How the texts of one site's edits may differ: not at all in a slot or an attribute, and else in quotes. -/
def AlikeAt (site : Option StringLiteral) (text text' : Text) : Prop :=
  match site with
  | none => text = text'
  | some literal => if literal.inAttribute then text = text' else SameButQuotes text text'

/-- A body between the quotes that are chosen; it is moved there if they are not its own. -/
def movedBody (own quote : Quote) (body : Text) : Text :=
  if quote = own then body else requotedBody [quote.mark] body

theorem editedWritten?_eq (migration : Migration) (options : Options) (literal : StringLiteral) :
    let quote := literalQuote options literal
    migration.editedWritten? options literal = (migration.newValue? (literal.written.drop 1).dropLast).map
      fun body => quote.mark :: (movedBody (.ofWritten literal.written) quote body ++ [quote.mark]) := by
  intro quote
  rw [editedWritten?]
  refine congrArg (Option.map · _) (funext fun body => ?_)
  dsimp only [movedBody, quote]
  split <;> rfl

theorem sameButEscapes_movedBody (own quote quote' : Quote) (body : Text) :
    SameButEscapes (movedBody own quote body) (movedBody own quote' body) := by
  by_cases same : quote = quote'
  · rw [same]
    exact .refl _
  by_cases kept : quote = own
  · rw [movedBody, if_pos kept, movedBody, if_neg fun kept' => same (kept.trans kept'.symm)]
    exact sameButEscapes_requotedBody quote' body
  · have kept' : quote' = own := by cases own <;> cases quote <;> cases quote' <;> simp_all
    rw [movedBody, if_neg kept, movedBody, if_pos kept']
    exact (sameButEscapes_requotedBody quote body).symm

theorem literalText?_rel (migration : Migration) (first second : Options) (literal : StringLiteral)
    (value : Text) : Option.Rel (AlikeAt (some literal)) (migration.literalText? first literal value)
      (migration.literalText? second literal value) := by
  cases attributed : literal.inAttribute with
  | true =>
    have own : ∀ options : Options, literalQuote options literal = .ofWritten literal.written := by
      intro options
      rw [literalQuote, attributed]
      cases options.quote.quote? <;> rfl
    rw [literalText?_congr ((own first).trans (own second).symm)]
    cases migration.literalText? second literal value with
    | none => exact .none
    | some text => exact .some (by rw [AlikeAt, attributed]; rfl)
  | false =>
    rw [literalText?, literalText?, editedWritten?_eq, editedWritten?_eq, attributed]
    cases migration.newValue? (literal.written.drop 1).dropLast with
    | none =>
      refine .some ?_
      rw [AlikeAt, attributed]
      exact Quotation.sameButQuotes_quoted _ _ value
    | some body =>
      refine .some ?_
      rw [AlikeAt, attributed]
      exact ⟨_, _, _, _, rfl, rfl, sameButEscapes_movedBody _ _ _ body⟩

/-- The edits of a script, each with its literal if it is one of a literal. -/
def sitedEdits (migration : Migration) (outline : Outline) (options : Options) :
    List (Option StringLiteral × Edit) :=
  (outline.members.filterMap (migration.memberEdit? outline)).map (none, ·) ++
    outline.strings.filterMap fun literal =>
      (migration.literalEdit? outline.source options literal).map (some literal, ·)

theorem map_snd_sitedEdits (migration : Migration) (outline : Outline) (options : Options) :
    (migration.sitedEdits outline options).map Prod.snd = migration.scriptEdits outline options := by
  have literals : ∀ strings : List StringLiteral, (strings.filterMap fun literal =>
      (migration.literalEdit? outline.source options literal).map (some literal, ·)).map Prod.snd =
        strings.filterMap (migration.literalEdit? outline.source options) := by
    intro strings
    rw [List.map_filterMap]
    simp [Option.map_map, Function.comp_def]
  rw [scriptEdits_eq_filterMap, literalEdits, sitedEdits, List.map_append, List.map_map, literals]
  exact congrArg (· ++ _) (List.map_id _)

/-- Edits of one site and one span, with texts that are alike. -/
def AlikeEdits (sited sited' : Option StringLiteral × Edit) : Prop :=
  sited.1 = sited'.1 ∧ sited.2.span = sited'.2.span ∧ AlikeAt sited.1 sited.2.text sited'.2.text

theorem literalEdit?_rel (migration : Migration) (source : Text) (first second : Options)
    (literal : StringLiteral) : Option.Rel AlikeEdits
      ((migration.literalEdit? source first literal).map (some literal, ·))
      ((migration.literalEdit? source second literal).map (some literal, ·)) := by
  rw [literalEdit?, literalEdit?]
  cases migration.newValue? literal.value with
  | none => exact .none
  | some value =>
    cases literal.place? source with
    | none => exact .none
    | some span =>
      have texts := literalText?_rel migration first second literal value
      simp only [Option.bind_eq_bind, Option.bind_some]
      generalize migration.literalText? first literal value = text? at texts ⊢
      generalize migration.literalText? second literal value = text?' at texts ⊢
      cases texts with
      | none => exact .none
      | some alike => exact .some ⟨rfl, rfl, alike⟩

theorem sitedEdits_rel (migration : Migration) (outline : Outline) (first second : Options) :
    List.Forall₂ AlikeEdits (migration.sitedEdits outline first) (migration.sitedEdits outline second) := by
  apply List.rel_append
  · apply List.forall₂_same.mpr
    intro sited mem
    obtain ⟨edit, -, rfl⟩ := List.mem_map.mp mem
    exact ⟨rfl, rfl, rfl⟩
  · refine List.rel_filterMap (R := Eq) ?_ (List.forall₂_eq_eq_eq ▸ rfl)
    rintro literal _ rfl
    exact literalEdit?_rel migration outline.source first second literal

theorem scriptEdits_congr (migration : Migration) (outline : Outline)
    (same : first.quote.quote? = second.quote.quote?) :
    migration.scriptEdits outline first = migration.scriptEdits outline second := by
  rw [scriptEdits_eq_filterMap, scriptEdits_eq_filterMap, literalEdits, literalEdits]
  congr 2
  funext literal
  exact literalEdit?_congr (literalQuote_congr same) outline.source

/-- Options only choose quotes. Two runs with any options edit a script at the same sites and spans in one
order. In slots and attributes they write the same, and elsewhere texts that differ at most in the quotes around
them and in backslashes directly before quotes. Options that choose the same quote make no difference at all. -/
theorem options_choose_quotes (migration : Migration) (first second : Options) :
    (∀ outline options,
      (migration.sitedEdits outline options).map Prod.snd = migration.scriptEdits outline options) ∧
    (∀ outline, List.Forall₂ AlikeEdits (migration.sitedEdits outline first)
      (migration.sitedEdits outline second)) ∧
    (first.quote.quote? = second.quote.quote? →
      (∀ outline, migration.scriptEdits outline first = migration.scriptEdits outline second ∧
        migration.editOutline outline first = migration.editOutline outline second) ∧
      ∀ source file, migration.editScript source first file = migration.editScript source second file) := by
  refine ⟨map_snd_sitedEdits migration, fun outline => sitedEdits_rel migration outline first second, ?_⟩
  intro same
  have outlines : ∀ outline, migration.editOutline outline first = migration.editOutline outline second := by
    intro outline
    rw [editOutline, editOutline, scriptEdits_congr migration outline same]
  refine ⟨fun outline => ⟨scriptEdits_congr migration outline same, outlines outline⟩, ?_⟩
  intro source file
  rw [editScript, editScript]
  simp only [outlines]

/-- A literal with a bare double quote keeps it in single quotes, which a trailing comma does not change, and
escapes it in double quotes. -/
theorem options_choose_quotes_bare :
    let literal : StringLiteral :=
      ⟨"\"&.MuiAlert-filledInfo".codePoints, "'\"&.MuiAlert-filledInfo'".codePoints, ⟨0, 24⟩, false⟩
    let outline : Outline := ⟨literal.written, [], [], [literal]⟩
    QuoteChoice.unset.quote? = QuoteChoice.auto.quote? ∧
      alert.scriptEdits outline ⟨.unset, true⟩ = alert.scriptEdits outline ⟨.auto, false⟩ ∧
      alert.scriptEdits outline ⟨.auto, false⟩ =
        [⟨⟨0, 24⟩, "'\"&.MuiAlert-filled.MuiAlert-colorInfo'".codePoints⟩] ∧
      alert.scriptEdits outline ⟨.always .double, false⟩ =
        [⟨⟨0, 24⟩, "\"\\\"&.MuiAlert-filled.MuiAlert-colorInfo\"".codePoints⟩] := by
  intro literal outline
  obtain ⟨-, -, congr⟩ := options_choose_quotes alert ⟨.unset, true⟩ ⟨.auto, false⟩
  refine ⟨rfl, ((congr rfl).1 outline).1, ?_, ?_⟩ <;> decide +kernel

end Migration

end ClassMigration
