import ClassMigration.Proofs.Stylesheet.PieceMentions
import ClassMigration.Proofs.Stylesheet.SelectorClasses
import ClassMigration.Proofs.Stylesheet.SimilarRules

/-! The parts of a selector in the source. Each begins where the one before it ends there, and the last ends at the
brace of the rule's block. The spans of the parts begin in these places too, but their ends are counted in the text
that is written anew: they meet exactly where that text is as long as the source's own. -/
namespace ClassMigration

namespace Span

/-- The spans lie one behind another from `start` to `stop`. -/
def Tile : Nat → List Span → Nat → Prop
  | start, [], stop => start = stop
  | start, span :: more, stop => span.start = start ∧ span.start ≤ span.stop ∧ Tile span.stop more stop

instance decidableTile : (start : Nat) → (spans : List Span) → (stop : Nat) → Decidable (Tile start spans stop)
  | start, [], stop => inferInstanceAs (Decidable (start = stop))
  | start, span :: more, stop =>
    have := decidableTile span.stop more stop
    inferInstanceAs (Decidable (span.start = start ∧ span.start ≤ span.stop ∧ Tile span.stop more stop))

/-- Spans that lie one behind another are known by where each begins. -/
theorem Tile.eq_of_starts {i j stop : Nat} {spans spans' : List Span} (tile : Tile i spans stop)
    (tile' : Tile j spans' stop) (starts : List.Forall₂ (fun a b => a.start = b.start) spans spans') :
    spans = spans' ∧ i = j := by
  induction starts generalizing i j with
  | nil => exact ⟨rfl, tile.trans tile'.symm⟩
  | @cons a b more more' same _ ih =>
    obtain ⟨start, -, later⟩ := tile
    obtain ⟨start', -, later'⟩ := tile'
    obtain ⟨rest, stops⟩ := ih later later'
    have both : a = b := by
      cases a
      cases b
      exact Span.mk.injEq .. ▸ ⟨same, stops⟩
    exact ⟨by rw [both, rest], start.symm.trans (same.trans start')⟩

end Span

namespace Stylesheet

namespace Scanner

theorem read_block {fuel : Nat} {c : CodePoint} {rest : Text} {bracket : Bracket}
    (reading : read fuel (c :: rest) = .block bracket) : c = bracket.opening := by
  unfold read at reading
  dsimp only at reading
  split at reading
  · cases reading
  split at reading
  · cases reading
  split at reading
  · cases reading
  split at reading
  · unfold readIdent at reading
    dsimp only at reading
    split at reading
    · split at reading <;> cases reading
    · cases reading
  split at reading
  · unfold readNumber at reading
    dsimp only at reading
    split at reading
    · cases reading
    · split at reading <;> cases reading
  split at reading
  · split at reading <;> cases reading
  · split at reading <;> cases reading
  · cases reading; rfl
  · cases reading; rfl
  · cases reading; rfl
  · cases reading
  · cases reading
  · cases reading
  · cases reading
  · cases reading
  split at reading
  · cases reading
  split at reading
  · cases reading
  split at reading
  · cases reading
  split at reading <;> cases reading

end Scanner

namespace Value

variable {source : Text} {i j k : Nat} {v : Value} {vs ws inner : List Value} {place : Position}

/-- Values that stand in the source one behind another from one offset to another. A block in braces begins with its
brace, and the values in it begin behind that. -/
inductive Laid (source : Text) : Nat → List Value → Nat → Prop
  | nil (i : Nat) : Laid source i [] i
  | other {i j k : Nat} {v : Value} {more : List Value} : v.curly? = none →
      (LineIndex.ofSource source).offset v.place = i → i ≤ j → Laid source j more k → Laid source i (v :: more) k
  | block {i j k m : Nat} {place : Position} {content more : List Value} :
      (LineIndex.ofSource source).offset place = i → source[i]? = some (.char '\x7b') → Laid source (i + 1) content m →
      i ≤ j → Laid source j more k → Laid source i (.block place .curly content :: more) k

namespace Laid

theorem le (laid : Laid source i vs j) : i ≤ j := by
  induction laid with
  | nil => exact Nat.le_refl _
  | other _ _ le _ ih => exact Nat.le_trans le ih
  | block _ _ _ le _ _ ih => exact Nat.le_trans le ih

theorem place_eq (laid : Laid source i (v :: vs) k) : (LineIndex.ofSource source).offset v.place = i := by
  cases laid with
  | other _ place => exact place
  | block place => exact place

theorem append (laid : Laid source i vs j) (laid' : Laid source j ws k) : Laid source i (vs ++ ws) k := by
  induction laid with
  | nil => exact laid'
  | other plain place le _ ih => exact .other plain place le (ih laid')
  | block place brace inside le _ _ ih => exact .block place brace inside le (ih laid')

theorem cut (laid : Laid source i (vs ++ ws) k) : ∃ j, Laid source i vs j ∧ Laid source j ws k := by
  induction vs generalizing i with
  | nil => exact ⟨i, .nil i, laid⟩
  | cons v vs ih =>
    cases laid with
    | other plain place le more =>
      obtain ⟨j, first, rest⟩ := ih more
      exact ⟨j, .other plain place le first, rest⟩
    | block place brace inside le more =>
      obtain ⟨j, first, rest⟩ := ih more
      exact ⟨j, .block place brace inside le first, rest⟩

theorem content (laid : Laid source i vs j) (mem : .block place .curly inner ∈ vs) :
    ∃ m n, Laid source m inner n := by
  induction laid with
  | nil => cases mem
  | other plain _ _ _ ih =>
    rcases List.mem_cons.mp mem with rfl | later
    · cases plain
    · exact ih later
  | block _ _ inside _ _ _ ih =>
    rcases List.mem_cons.mp mem with same | later
    · cases same
      exact ⟨_, _, inside⟩
    · exact ih later

theorem brace (laid : Laid source i (v :: vs) j) (isCurly : v.curly? = some inner) :
    source[i]? = some (.char '\x7b') := by
  cases laid with
  | other plain => rw [plain] at isCurly; cases isCurly
  | block _ brace => exact brace

theorem tokens {lexemes : List Lexeme} (some : lexemes ≠ []) (here : (LineIndex.ofSource source).offset place = i)
    (le : i ≤ j) (laid : Laid source j vs k) : Laid source i (lexemes.map (.token place) ++ vs) k := by
  induction lexemes with
  | nil => exact absurd rfl some
  | cons l more ih =>
    cases more with
    | nil => exact .other rfl here le laid
    | cons l' more => exact .other rfl here (Nat.le_refl i) (ih (by simp))

end Laid

end Value

open Piece (textOf)

theorem Leaf.lexemes_ne_nil {kind : Leaf} {raw : Text} (fits : kind.Fits raw) : kind.lexemes ≠ [] := by
  cases kind with
  | dot => simp [lexemes]
  | ident name => simp [lexemes]
  | other lexemes => exact fits.1

theorem untouched_brace : ∀ c ∈ [.char '\x7b'], Untouched c := by
  intro c mem
  obtain rfl := List.mem_singleton.mp mem
  exact ⟨by decide, by decide, by decide, by decide, by decide⟩

/-- Pieces that stand in the normalized text are laid out in the source. -/
theorem Scans.laid {source b after : Text} {closing : Option CodePoint} {pieces : List Piece}
    (scans : Scans closing pieces after) (cut : normalized source = b ++ (textOf pieces ++ after)) :
    Value.Laid source ((LineIndex.ofSource source).offset (Position.first.after b))
      (Piece.valuesOf (Position.first.after b) pieces)
      ((LineIndex.ofSource source).offset (Position.first.after (b ++ textOf pieces))) := by
  induction scans generalizing b with
  | stop =>
    rw [textOf, List.append_nil]
    exact .nil _
  | @leaf closing c w kind more after head reading fits rest ih =>
    have whole : normalized source = b ++ ((c :: w) ++ (textOf more ++ after)) := by
      rw [cut, Piece.textOf_leaf]
    have later := ih (b := b ++ (c :: w)) (by rw [whole, List.append_assoc])
    have order := LineIndex.offset_le whole
    rw [textOf, Piece.text, ← List.append_assoc]
    apply Value.Laid.tokens (Leaf.lexemes_ne_nil fits) rfl order
    rw [← Position.after_append]
    exact later
  | @nest closing c w opening inner more last after head reading fits closed inside rest ihInside ih =>
    have whole : normalized source = b ++ ((c :: w) ++ (textOf inner ++ (last ++ (textOf more ++ after)))) := by
      rw [cut, Piece.textOf_nest]
    have parted : normalized source =
        b ++ ((Piece.nest (c :: w) opening inner last).text ++ (textOf more ++ after)) := by
      simpa [Piece.text] using whole
    have within := ihInside (b := b ++ (c :: w)) (by rw [whole, List.append_assoc])
    have later := ih (b := b ++ (Piece.nest (c :: w) opening inner last).text) (by rw [parted, List.append_assoc])
    have order := LineIndex.offset_le parted
    rw [Position.after_append] at within later order
    rw [textOf, ← List.append_assoc]
    cases opening with
    | function name => exact .other rfl rfl order later
    | block bracket =>
      cases bracket with
      | square => exact .other rfl rfl order later
      | round => exact .other rfl rfl order later
      | curly =>
        obtain rfl : w = [] := List.length_eq_zero_iff.mp (Nat.succ.inj fits)
        obtain rfl := Scanner.read_block (reading _ (Nat.le_refl _))
        have behind := LineIndex.offset_append whole (by decide)
        rw [Position.after_append] at behind
        have opens : [.char '\x7b'] <+: source.drop ((LineIndex.ofSource source).offset (Position.first.after b)) := by
          apply (untouched_isPrefix_normalized untouched_brace _).mp
          rw [(LineIndex.offset_after source b _ whole).2.2]
          exact List.prefix_append _ _
        obtain ⟨more, drops⟩ := opens
        have brace : source[(LineIndex.ofSource source).offset (Position.first.after b)]? = some (.char '\x7b') := by
          rw [← List.head?_drop, ← drops]
          rfl
        exact .block rfl brace (behind ▸ within) order later

theorem laid_valuesOf (source : Text) : ∃ i j, Value.Laid source i (valuesOf source) j := by
  obtain ⟨pieces, whole, scans⟩ := Scans.exists_whole (normalized source)
  have laid := scans.laid (b := []) (by rw [whole, List.nil_append, List.append_nil])
  rw [Scans.valuesOf_eq whole scans]
  exact ⟨_, _, laid⟩

namespace Cut

variable {source : Text} {i j : Nat} {level : Level} {begun : Begun} {v : Value} {vs : List Value} {cut : Cut}

/-- The values of a style rule that has begun stand from its place up to an offset. -/
def Begun.Laid (source : Text) (stop : Nat) : Begun → Prop
  | .qualified place values => Value.Laid source ((LineIndex.ofSource source).offset place) values.reverse stop
  | _ => True

/-- The prelude of a style rule stands from its place up to the brace of its block. -/
def Laid (source : Text) : Cut → Prop
  | rule place prelude _ => ∃ stop, source[stop]? = some (.char '\x7b') ∧
      Value.Laid source ((LineIndex.ofSource source).offset place) prelude stop
  | _ => True

theorem laid_of_content (none : cut.content? = .none) : cut.Laid source := by
  cases cut with
  | rule => cases none
  | atRule => trivial
  | fault => trivial

theorem step_laid (level : Level) (begins : begun.Laid source i) (laid : Value.Laid source i [v] j) :
    (∀ cut ∈ (step level begun v).1, cut.Laid source) ∧ (step level begun v).2.Laid source j := by
  have place := laid.place_eq
  cases begun with
  | nothing =>
    have begun : Begun.Laid source j (.qualified v.place [v]) := by
      rw [Begun.Laid, place]
      exact laid
    dsimp only [step]
    split
    · exact ⟨by simp, trivial⟩
    split
    · exact ⟨by simp, trivial⟩
    · refine ⟨?_, trivial⟩
      intro cut mem
      obtain rfl := List.mem_singleton.mp mem
      exact ⟨i, laid.brace rfl, place.symm ▸ .nil i⟩
    · exact ⟨by simp, begun⟩
  | qualified place values =>
    dsimp only [step]
    split
    · exact ⟨fun cut mem => laid_of_content (atSemicolon_content mem), trivial⟩
    cases isCurly : v.curly? with
    | some content =>
      refine ⟨?_, trivial⟩
      intro cut mem
      dsimp only [atBlock] at mem
      split at mem
      · cases mem
      · obtain rfl := List.mem_singleton.mp mem
        exact ⟨i, laid.brace isCurly, begins⟩
    | none =>
      refine ⟨by simp, ?_⟩
      rw [Begun.Laid, List.reverse_cons]
      exact begins.append laid
  | atRule keyword =>
    dsimp only [step]
    split
    · refine ⟨?_, trivial⟩
      intro cut mem
      obtain rfl := List.mem_singleton.mp mem
      trivial
    cases v.curly? with
    | some content =>
      refine ⟨?_, trivial⟩
      intro cut mem
      obtain rfl := List.mem_singleton.mp mem
      trivial
    | none => exact ⟨by simp, trivial⟩

theorem all_laid (begins : begun.Laid source i) (laid : Value.Laid source i vs j) :
    ∀ cut ∈ all level begun vs, cut.Laid source := by
  induction vs generalizing begun i with
  | nil =>
    intro cut mem
    cases begun with
    | nothing => cases mem
    | qualified place values => exact laid_of_content (atEnd_content mem)
    | atRule keyword =>
      obtain rfl := List.mem_singleton.mp mem
      trivial
  | cons v more ih =>
    intro cut mem
    have parted : Value.Laid source i ([v] ++ more) j := laid
    obtain ⟨k, first, rest⟩ := parted.cut
    obtain ⟨completed, next⟩ := step_laid level begins first
    rw [all_cons] at mem
    rcases List.mem_append.mp mem with own | later
    · exact completed cut own
    · exact ih next rest cut later

end Cut

/-- The rule's parts are those of a prelude that stands from the rule's place up to the brace of its block. -/
def StyleRule.Laid (source : Text) (rule : StyleRule) : Prop :=
  ∃ prelude stop, rule.parts = Part.ofValues (LineIndex.ofSource source) prelude ∧ source[stop]? = some (.char '\x7b') ∧
    Value.Laid source ((LineIndex.ofSource source).offset rule.place) prelude stop

namespace Item

variable {source : Text} {depth : Nat} {rules : List StyleRule} {atRules : List Text} {rule : StyleRule}

theorem laid_of_cuts {cuts : List Cut} (laid : ∀ cut ∈ cuts, cut.Laid source)
    (nested : ∀ cut ∈ cuts, ∀ content, cut.content? = some content → ∀ level atRules rules,
      rulesOf (LineIndex.ofSource source) atRules (ofValues depth level content) = .ok rules →
        ∀ rule ∈ rules, rule.Laid source)
    (ok : rulesOf (LineIndex.ofSource source) atRules (cuts.map (ofCut depth)) = .ok rules) (mem : rule ∈ rules) :
    rule.Laid source := by
  induction cuts generalizing rules with
  | nil => cases ok; cases mem
  | cons cut cuts ih =>
    obtain ⟨own, laid⟩ := List.forall_mem_cons.mp laid
    obtain ⟨inside, nested⟩ := List.forall_mem_cons.mp nested
    rw [List.map_cons, rulesOf_cons_ok] at ok
    obtain ⟨first, rest, okFirst, okRest, rfl⟩ := ok
    rcases List.mem_append.mp mem with here | later
    case inr => exact ih laid nested okRest later
    cases cut with
    | rule place prelude content =>
      rw [ofCut, rules_rule_ok] at okFirst
      obtain ⟨inner, okInner, rfl⟩ := okFirst
      rcases List.mem_cons.mp here with rfl | deeper
      · obtain ⟨stop, brace, values⟩ := own
        exact ⟨prelude, stop, rfl, brace, values⟩
      · split at okInner
        · exact inside content rfl _ _ _ okInner rule deeper
        · cases okInner; cases deeper
    | atRule keyword content =>
      rw [ofCut] at okFirst
      split at okFirst
      · cases content with
        | none => cases okFirst; cases here
        | some content => exact inside content rfl _ _ _ okFirst rule here
      · cases okFirst; cases here
    | fault found => cases okFirst

theorem laid_of_ofValues {level : Cut.Level} {vs : List Value} (values : ∃ i j, Value.Laid source i vs j)
    (ok : rulesOf (LineIndex.ofSource source) atRules (ofValues depth level vs) = .ok rules) (mem : rule ∈ rules) :
    rule.Laid source := by
  induction depth generalizing level vs atRules rules rule with
  | zero => cases ok; cases mem
  | succ depth ih =>
    obtain ⟨i, j, laid⟩ := values
    have begins : Cut.Begun.nothing.Laid source i := trivial
    rw [ofValues_succ] at ok
    refine laid_of_cuts (Cut.all_laid begins laid) ?_ ok mem
    intro cut isCut content holds level atRules rules ok rule mem
    obtain ⟨place, inside⟩ := Cut.all_content isCut holds
    exact ih (laid.content inside) ok mem

end Item

namespace Part

variable {index : LineIndex} {part : Part} {v following : Value} {group : List Value} {i : Nat}

theorem single_span (index : LineIndex) (v : Value) : (single index v).span = spanOf index v := by
  unfold single
  dsimp only
  split <;> rfl

theorem class?_span (found : class? index v following = some part) : part.span.start = index.offset v.place ∧
    part.span.stop = index.offset following.place + following.serialized.length := by
  unfold class? at found
  dsimp only at found
  split at found
  · split at found
    · rename_i adjacent
      cases found
      exact ⟨rfl, by rw [adjacent]; rfl⟩
    · cases found
  · cases found

theorem pseudo?_span (found : pseudo? index i v = some part) : part.span.start = i ∧
    part.span.stop = index.offset v.place + v.serialized.length := by
  unfold pseudo? at found
  split at found
  · cases found
    exact ⟨rfl, rfl⟩
  · cases found
    exact ⟨rfl, rfl⟩
  · cases found

theorem Takes.start (takes : Takes index part (v :: group)) : part.span.start = index.offset v.place := by
  cases takes with
  | alone => rw [single_span]; rfl
  | named _ found => exact (class?_span found).1
  | pseudo _ found => exact (pseudo?_span found).1
  | doubled _ _ found => exact (pseudo?_span found).1

/-- A part ends behind the last value that it takes, as if this were written anew where it stands. -/
theorem Takes.stop (takes : Takes index part group) :
    ∃ last ∈ group.getLast?, part.span.stop = index.offset last.place + last.serialized.length := by
  cases takes with
  | alone v => exact ⟨v, rfl, by rw [single_span]; rfl⟩
  | named _ found => exact ⟨_, rfl, (class?_span found).2⟩
  | pseudo _ found => exact ⟨_, rfl, (pseudo?_span found).2⟩
  | doubled _ _ found => exact ⟨_, rfl, (pseudo?_span found).2⟩

theorem exists_extents {source : Text} {parts : List Part} {groups : List (List Value)} {i stop : Nat}
    (takes : List.Forall₂ (Takes (LineIndex.ofSource source)) parts groups)
    (laid : Value.Laid source i groups.flatten stop) : ∃ extents : List Span, Span.Tile i extents stop ∧
      List.Forall₂ (fun part extent => part.span.start = extent.start) parts extents := by
  induction takes generalizing i with
  | nil =>
    cases laid
    exact ⟨[], rfl, .nil⟩
  | @cons part group parts groups own _ ih =>
    obtain ⟨v, rest, rfl⟩ := List.exists_cons_of_length_pos own.length.1
    rw [List.flatten_cons] at laid
    have start := own.start.trans laid.place_eq
    obtain ⟨j, here, later⟩ := laid.cut
    obtain ⟨extents, tile, starts⟩ := ih later
    exact ⟨⟨i, j⟩ :: extents, ⟨rfl, here.le, tile⟩, .cons start starts⟩

end Part

/-- The parts of a selector take the whole prelude, each the values from its start up to the start of the next one,
and the last one those up to the brace of the block. So the spans that are reported lie one behind another exactly
where every part is as long as what it takes. -/
theorem Sheet.exists_extents {source : Text} {sheet : Sheet} (ok : Sheet.read source = .ok sheet) {rule : StyleRule}
    (mem : rule ∈ sheet.rules) :
    let index := LineIndex.ofSource source
    ∃ (groups : List (List Value)) (extents : List Span) (stop : Nat),
      rule.parts = Part.ofValues index groups.flatten ∧ List.Forall₂ (Part.Takes index) rule.parts groups ∧
      source[stop]? = some (.char '\x7b') ∧ Span.Tile (index.offset rule.place) extents stop ∧
      List.Forall₂ (fun part extent => part.span.start = extent.start) rule.parts extents ∧
      (Span.Tile (index.offset rule.place) (rule.parts.map Part.span) stop ↔ rule.parts.map Part.span = extents) := by
  intro index
  have laid : rule.Laid source := by
    rw [Sheet.read] at ok
    cases collected : Item.rulesOf index [] (Sheet.items source) with
    | error fault => rw [collected] at ok; cases ok
    | ok rules =>
      rw [collected] at ok
      cases ok
      exact Item.laid_of_ofValues (laid_valuesOf source) collected mem
  obtain ⟨prelude, stop, parts, brace, values⟩ := laid
  obtain ⟨groups, rfl, takes⟩ := Part.exists_groups index prelude
  rw [← parts] at takes
  obtain ⟨extents, tile, starts⟩ := Part.exists_extents takes values
  refine ⟨groups, extents, stop, parts, takes, brace, tile, starts, ?_⟩
  constructor
  · intro reported
    exact (reported.eq_of_starts tile (List.forall₂_map_left_iff.mpr starts)).1
  · intro same
    rw [same]
    exact tile

/-- The white space has two characters in the source and one when it is written anew, so the spans leave a gap. -/
example : ((Sheet.read ".a\r\n.b\x7b\x7d".codePoints).toOption.any fun sheet => sheet.rules.any fun rule =>
    rule.parts.map Part.span = [⟨0, 2⟩, ⟨2, 3⟩, ⟨4, 6⟩] ∧ ¬Span.Tile 0 (rule.parts.map Part.span) 6) = true := by
  decide +kernel

end Stylesheet

end ClassMigration
