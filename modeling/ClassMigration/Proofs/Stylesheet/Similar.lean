import ClassMigration.Proofs.Stylesheet.Cutting
import Mathlib.Data.List.Forall2

/-! Values that differ in the classes they name, and in their places. Which values form a declaration, and
where rules begin and end, is the same for both. -/
namespace ClassMigration.Stylesheet

/-- What stands on two lists of values side by side: which classes may stay, given the places of the dot
and of the name on both, and which names may come in. -/
structure Respect where
  kept : Position × Position → Position × Position → Text → Prop
  fresh : Text → Prop

def dotAt (l : Lexeme) (p p' : Position) : Option (Position × Position) :=
  if l = .mark [.char '.'] then some (p, p') else none

theorem dotAt_of_ne {l : Lexeme} (other : l ≠ .mark [.char '.']) (p p' : Position) : dotAt l p p' = none := by
  unfold dotAt
  rw [if_neg other]

/-- The values are the same up to places, except for names after a dot. Such a name may be another one on
the right, and more names with dots may stand before it there. -/
inductive Similar (r : Respect) : Option (Position × Position) → List Value → List Value → Prop
  | nil {dot} : Similar r dot [] []
  | token {dot p p' l more more'} (single : dot = none ∨ ∀ n, l ≠ .ident n)
      (rest : Similar r (dotAt l p p') more more') :
      Similar r dot (.token p l :: more) (.token p' l :: more')
  | kept {dot p p' name more more'} (stays : r.kept dot (p, p') name)
      (rest : Similar r none more more') :
      Similar r (some dot) (.token p (.ident name) :: more) (.token p' (.ident name) :: more')
  | other {dot p p' name new more more'} (fresh : r.fresh new) (rest : Similar r none more more') :
      Similar r (some dot) (.token p (.ident name) :: more) (.token p' (.ident new) :: more')
  | before {d d' p' q' new values values'} (fresh : r.fresh new)
      (rest : Similar r (some (d, q')) values values') :
      Similar r (some (d, d')) values
        (.token p' (.ident new) :: .token q' (.mark [.char '.']) :: values')
  | function {dot p p' name inner inner' more more'} (inside : Similar r none inner inner')
      (rest : Similar r none more more') :
      Similar r dot (.function p name inner :: more) (.function p' name inner' :: more')
  | block {dot p p' bracket inner inner' more more'} (inside : Similar r none inner inner')
      (rest : Similar r none more more') :
      Similar r dot (.block p bracket inner :: more) (.block p' bracket inner' :: more')

namespace Similar

variable {r : Respect} {dot : Option (Position × Position)} {vs vs' : List Value}

theorem dropWhile_gap (similar : Similar r none vs vs') :
    Similar r none (vs.dropWhile Value.isGap) (vs'.dropWhile Value.isGap) := by
  generalize same : none = d at similar
  induction similar with
  | nil => exact .nil
  | @token dot p p' l more more' single rest ih =>
    by_cases gap : (Value.token p l).isGap
    · have undotted : dotAt l p p' = none := by
        refine dotAt_of_ne ?_ p p'
        rintro rfl
        simp [Value.isGap, Value.lexeme?] at gap
      have gap' : (Value.token p' l).isGap := gap
      rw [List.dropWhile_cons, if_pos gap, List.dropWhile_cons, if_pos gap', ← same, ← undotted]
      exact ih undotted.symm
    · have gap' : ¬(Value.token p' l).isGap := gap
      rw [List.dropWhile_cons, if_neg gap, List.dropWhile_cons, if_neg gap']
      exact .token single rest
  | kept => exact absurd same (by simp)
  | other => exact absurd same (by simp)
  | before => exact absurd same (by simp)
  | function inside rest => exact .function inside rest
  | block inside rest => exact .block inside rest

end Similar

namespace Cut

theorem blockAlone_token {p p' : Position} {l : Lexeme} (tail : Tail) (filled : Bool)
    (more more' : List Value)
    (rest : ∀ tail filled, (dotAt l p p' = none ∨ (tail = .value ∧ filled = true)) →
      blockAlone tail filled more = blockAlone tail filled more') :
    blockAlone tail filled (.token p l :: more) = blockAlone tail filled (.token p' l :: more') := by
  by_cases isDot : l = .mark [.char '.']
  · subst isDot
    have next := rest .value true (.inr ⟨rfl, rfl⟩)
    simpa [blockAlone, Value.isMark, Value.lexeme?, Value.isGap, Value.curly?, Value.ident?] using next
  · have undotted := dotAt_of_ne isDot p p'
    simp only [blockAlone, Value.isMark, Value.lexeme?, Value.isGap, Value.curly?, Value.ident?,
      rest _ _ (.inl undotted)]
    rfl

theorem blockAlone_similar {r : Respect} {dot : Option (Position × Position)} {vs vs' : List Value}
    (similar : Similar r dot vs vs') (tail : Tail) (filled : Bool)
    (inside : dot = none ∨ (tail = .value ∧ filled = true)) :
    blockAlone tail filled vs = blockAlone tail filled vs' := by
  induction similar generalizing tail filled with
  | nil => rfl
  | token single rest ih => exact blockAlone_token tail filled _ _ ih
  | kept stays rest ih =>
    obtain ⟨rfl, rfl⟩ : tail = .value ∧ filled = true := by simpa using inside
    simpa [blockAlone, Value.isMark, Value.lexeme?, Value.isGap, Value.curly?] using ih .value true (.inl rfl)
  | other fresh rest ih =>
    obtain ⟨rfl, rfl⟩ : tail = .value ∧ filled = true := by simpa using inside
    simpa [blockAlone, Value.isMark, Value.lexeme?, Value.isGap, Value.curly?] using ih .value true (.inl rfl)
  | before fresh rest ih =>
    obtain ⟨rfl, rfl⟩ : tail = .value ∧ filled = true := by simpa using inside
    simpa [blockAlone, Value.isMark, Value.lexeme?, Value.isGap, Value.curly?] using
      ih .value true (.inr ⟨rfl, rfl⟩)
  | function within rest ihInside ih =>
    simpa [blockAlone, Value.isMark, Value.lexeme?, Value.isGap, Value.curly?, Value.ident?] using
      ih .value true (.inl rfl)
  | @block dot p p' bracket inner inner' more more' within rest ihInside ih =>
    have next := ih .value true (.inl rfl)
    cases bracket <;>
      simp [blockAlone, Value.isMark, Value.lexeme?, Value.isGap, Value.curly?, Value.ident?, next]

variable {r : Respect} {dot : Option (Position × Position)} {vs vs' : List Value}

theorem colonValue_similar (similar : Similar r none vs vs') :
    (match vs.dropWhile Value.isGap with
      | [] => false
      | colon :: value => colon.isMark ":" && blockAlone .value false value) =
    (match vs'.dropWhile Value.isGap with
      | [] => false
      | colon :: value => colon.isMark ":" && blockAlone .value false value) := by
  have gone := similar.dropWhile_gap
  generalize vs.dropWhile Value.isGap = us, vs'.dropWhile Value.isGap = us' at gone
  cases gone with
  | nil => rfl
  | @token _ p p' l us us' single rest =>
    by_cases colon : l = .mark [.char ':']
    · subst colon
      have same := blockAlone_similar rest .value false (.inl rfl)
      simp [Value.isMark, Value.lexeme?, same]
    · have other : (l == .mark [.char ':']) = false := by simpa using colon
      simp [Value.isMark, Value.lexeme?, other]
  | function => rfl
  | block => rfl

theorem isDeclaration_similar (similar : Similar r none vs vs') :
    isDeclaration vs = isDeclaration vs' := by
  cases similar with
  | nil => rfl
  | @token _ p p' l more more' single rest =>
    by_cases isDot : l = .mark [.char '.']
    · subst isDot
      rfl
    · rw [dotAt_of_ne isDot] at rest
      exact congrArg ((Value.token p l).ident?.isSome && ·) (colonValue_similar rest)
  | function => rfl
  | block => rfl

theorem any_curly_similar (similar : Similar r dot vs vs') :
    vs.any (·.curly?.isSome) = vs'.any (·.curly?.isSome) := by
  induction similar with
  | nil => rfl
  | token single rest ih => simpa [Value.curly?] using ih
  | kept stays rest ih => simpa [Value.curly?] using ih
  | other fresh rest ih => simpa [Value.curly?] using ih
  | before fresh rest ih => simpa [Value.curly?] using ih
  | function inside rest _ ih => simpa [Value.curly?] using ih
  | @block dot p p' bracket _ _ _ _ inside rest _ ih =>
    cases bracket with
    | curly => simp [Value.curly?]
    | square => simpa [Value.curly?] using ih
    | round => simpa [Value.curly?] using ih

inductive SimilarCut (r : Respect) : Cut → Cut → Prop
  | rule {p p' prelude prelude' content content'} (before : Similar r none prelude prelude')
      (inside : Similar r none content content') :
      SimilarCut r (.rule p prelude content) (.rule p' prelude' content')
  | alone {keyword} : SimilarCut r (.atRule keyword none) (.atRule keyword none)
  | atRule {keyword content content'} (inside : Similar r none content content') :
      SimilarCut r (.atRule keyword (some content)) (.atRule keyword (some content'))
  | fault {found found'} : SimilarCut r (.fault found) (.fault found')

/-- Values in reverse that similar values continue to similar values. -/
def Continues (r : Respect) (dot : Option (Position × Position)) (values values' : List Value) : Prop :=
  ∀ vs vs', Similar r dot vs vs' → Similar r none (values.reverse ++ vs) (values'.reverse ++ vs')

/-- Rules that have begun in the same way, the last value of both being a dot if `dot` tells so. -/
inductive SimilarBegun (r : Respect) : Option (Position × Position) → Begun → Begun → Prop
  | nothing : SimilarBegun r none .nothing .nothing
  | qualified {dot p p' values values'} (continues : Continues r dot values values')
      (some : values ≠ []) (some' : values' ≠ []) :
      SimilarBegun r dot (.qualified p values) (.qualified p' values')
  | atRule {dot keyword} : SimilarBegun r dot (.atRule keyword) (.atRule keyword)

namespace Continues

variable {values values' : List Value}

theorem whole (continues : Continues r dot values values') :
    Similar r none values.reverse values'.reverse := by
  simpa using continues [] [] .nil

theorem nil : Continues r none [] [] := fun _ _ similar => similar

theorem cons {dot' : Option (Position × Position)} {v v' : Value}
    (continues : Continues r dot values values')
    (next : ∀ vs vs', Similar r dot' vs vs' → Similar r dot (v :: vs) (v' :: vs')) :
    Continues r dot' (v :: values) (v' :: values') := by
  intro vs vs' similar
  simpa using continues (v :: vs) (v' :: vs') (next vs vs' similar)

end Continues

theorem atEnd_similar {level : Level} {values values' : List Value}
    (continues : Continues r dot values values') (some : values ≠ []) (some' : values' ≠ []) :
    List.Forall₂ (SimilarCut r) (atEnd level values) (atEnd level values') := by
  obtain ⟨last, before, rfl⟩ := List.exists_cons_of_ne_nil some
  obtain ⟨last', before', rfl⟩ := List.exists_cons_of_ne_nil some'
  have same := isDeclaration_similar continues.whole
  simp only [atEnd, same]
  split
  · exact .nil
  · exact .cons .fault .nil

theorem atSemicolon_similar {values values' : List Value} (continues : Continues r dot values values')
    (semicolon semicolon' : Value) :
    List.Forall₂ (SimilarCut r) (atSemicolon values semicolon) (atSemicolon values' semicolon') := by
  have same := isDeclaration_similar continues.whole
  unfold atSemicolon
  rw [same]
  split
  · exact .nil
  · exact .cons .fault .nil

theorem atBlock_similar {level : Level} {p p' q q' : Position} {values values' inner inner' : List Value}
    (continues : Continues r dot values values') (inside : Similar r none inner inner') :
    List.Forall₂ (SimilarCut r) (atBlock level p values (.block q .curly inner) inner)
      (atBlock level p' values' (.block q' .curly inner') inner') := by
  have whole := continues [.block q .curly inner] [.block q' .curly inner'] (.block inside .nil)
  have same := isDeclaration_similar whole
  unfold atBlock
  rw [same]
  split
  · exact .nil
  · exact .cons (.rule continues.whole inside) .nil

/-- What a step gives on both sides. -/
structure SimilarStep (r : Respect) (dot : Option (Position × Position))
    (result result' : List Cut × Begun) : Prop where
  cuts : List.Forall₂ (SimilarCut r) result.1 result'.1
  begun : SimilarBegun r dot result.2 result'.2

theorem step_similar_token {level : Level} {p p' : Position} {l : Lexeme} {begun begun' : Begun}
    (begins : SimilarBegun r dot begun begun') (single : dot = none ∨ ∀ n, l ≠ .ident n) :
    SimilarStep r (dotAt l p p') (step level begun (.token p l)) (step level begun' (.token p' l)) := by
  have next : ∀ vs vs', Similar r (dotAt l p p') vs vs' →
      Similar r dot (.token p l :: vs) (.token p' l :: vs') := fun _ _ => .token single
  cases begins with
  | nothing =>
    have same : skips level (.token p' l) = skips level (.token p l) := rfl
    cases skipped : skips level (.token p l) with
    | true =>
      have undotted : dotAt l p p' = none := by
        refine dotAt_of_ne ?_ p p'
        rintro rfl
        simp [skips, Value.isGap, Value.lexeme?, isComment, Value.isMark] at skipped
      rw [step_nothing_skips skipped, step_nothing_skips (same.trans skipped), undotted]
      exact ⟨.nil, .nothing⟩
    | false =>
      by_cases keyword : ∃ name, l = .atKeyword name
      · obtain ⟨name, rfl⟩ := keyword
        rw [step_nothing_keyword p name skipped, step_nothing_keyword p' name (same.trans skipped)]
        exact ⟨.nil, .atRule⟩
      · have plain : ∀ name, l ≠ .atKeyword name := fun name same => keyword ⟨name, same⟩
        rw [step_nothing_token skipped plain, step_nothing_token (same.trans skipped) plain]
        exact ⟨.nil, .qualified (Continues.nil.cons next) (by simp) (by simp)⟩
  | @qualified _ q q' values values' continues some some' =>
    have goes : SimilarStep r (dotAt l p p') ([], .qualified q (.token p l :: values))
        ([], .qualified q' (.token p' l :: values')) :=
      ⟨.nil, .qualified (continues.cons next) (by simp) (by simp)⟩
    by_cases semicolon : l = .mark [.char ';']
    · subst semicolon
      cases level with
      | block => exact ⟨atSemicolon_similar continues _ _, .nothing⟩
      | sheet => exact goes
      | rules => exact goes
    · rw [step_qualified_inner (inner_token semicolon p), step_qualified_inner (inner_token semicolon p')]
      exact goes
  | atRule =>
    by_cases semicolon : l = .mark [.char ';']
    · subst semicolon
      exact ⟨.cons .alone .nil, .nothing⟩
    · rw [step_atRule_inner (inner_token semicolon p), step_atRule_inner (inner_token semicolon p')]
      exact ⟨.nil, .atRule⟩

/-- Two functions, or two blocks that are not in braces. -/
theorem step_similar_nest {level : Level} {v v' : Value} (inner : Inner v) (inner' : Inner v')
    (noLexeme : v.lexeme? = none) (noLexeme' : v'.lexeme? = none) {begun begun' : Begun}
    (begins : SimilarBegun r dot begun begun')
    (next : ∀ vs vs', Similar r none vs vs' → Similar r dot (v :: vs) (v' :: vs')) :
    SimilarStep r none (step level begun v) (step level begun' v') := by
  cases begins with
  | nothing =>
    rw [step_nothing_nest noLexeme inner.curly, step_nothing_nest noLexeme' inner'.curly]
    exact ⟨.nil, .qualified (Continues.nil.cons next) (by simp) (by simp)⟩
  | qualified continues some some' =>
    rw [step_qualified_inner inner, step_qualified_inner inner']
    exact ⟨.nil, .qualified (continues.cons next) (by simp) (by simp)⟩
  | atRule =>
    rw [step_atRule_inner inner, step_atRule_inner inner']
    exact ⟨.nil, .atRule⟩

theorem step_similar_curly {level : Level} {p p' : Position} {inner inner' : List Value}
    {begun begun' : Begun} (begins : SimilarBegun r dot begun begun')
    (inside : Similar r none inner inner') :
    SimilarStep r none (step level begun (.block p .curly inner))
      (step level begun' (.block p' .curly inner')) := by
  cases begins with
  | nothing =>
    rw [step_nothing_curly, step_nothing_curly]
    exact ⟨.cons (.rule .nil inside) .nil, .nothing⟩
  | qualified continues some some' =>
    rw [step_qualified_curly, step_qualified_curly]
    exact ⟨atBlock_similar continues inside, .nothing⟩
  | atRule => exact ⟨.cons (.atRule inside) .nil, .nothing⟩

/-- Two names after a dot; no rule begins with them. -/
theorem step_similar_name {level : Level} {d : Position × Position} {p p' : Position} {name name' : Text}
    {begun begun' : Begun} (begins : SimilarBegun r (some d) begun begun')
    (next : ∀ vs vs', Similar r none vs vs' →
      Similar r (some d) (.token p (.ident name) :: vs) (.token p' (.ident name') :: vs')) :
    SimilarStep r none (step level begun (.token p (.ident name)))
      (step level begun' (.token p' (.ident name'))) := by
  have inner : ∀ (q : Position) (n : Text), Inner (.token q (.ident n)) :=
    fun q n => inner_token (by simp) q
  cases begins with
  | qualified continues some some' =>
    rw [step_qualified_inner (inner _ _), step_qualified_inner (inner _ _)]
    exact ⟨.nil, .qualified (continues.cons next) (by simp) (by simp)⟩
  | atRule =>
    rw [step_atRule_inner (inner _ _), step_atRule_inner (inner _ _)]
    exact ⟨.nil, .atRule⟩

/-- One more name and dot on the right lead from a dot to a dot. -/
theorem all_similar_before {level : Level} {d d' p' q' : Position} {new : Text} {begun begun' : Begun}
    (begins : SimilarBegun r (some (d, d')) begun begun') (fresh : r.fresh new) (more : List Value) :
    ∃ begun₂, SimilarBegun r (some (d, q')) begun begun₂ ∧
      all level begun' (.token p' (.ident new) :: .token q' (.mark [.char '.']) :: more) =
        all level begun₂ more := by
  have name : Inner (.token p' (.ident new)) := inner_token (by simp) p'
  have isDot : Inner (.token q' (.mark [.char '.'])) := inner_token (by simp) q'
  cases begins with
  | @qualified _ p₀ p₀' values values' continues some some' =>
    refine ⟨.qualified p₀' (.token q' (.mark [.char '.']) :: .token p' (.ident new) :: values'),
      .qualified ?_ some (by simp), ?_⟩
    · intro vs vs' similar
      simpa using continues vs _ (.before fresh similar)
    · rw [all_cons, step_qualified_inner name, all_cons, step_qualified_inner isDot]
      rfl
  | @atRule _ keyword =>
    refine ⟨.atRule keyword, .atRule, ?_⟩
    rw [all_cons, step_atRule_inner name, all_cons, step_atRule_inner isDot]
    rfl

theorem all_similar {level : Level} (similar : Similar r dot vs vs') {begun begun' : Begun}
    (begins : SimilarBegun r dot begun begun') :
    List.Forall₂ (SimilarCut r) (all level begun vs) (all level begun' vs') := by
  induction similar generalizing begun begun' with
  | nil =>
    cases begins with
    | nothing => exact .nil
    | qualified continues some some' => exact atEnd_similar continues some some'
    | atRule => exact .cons .alone .nil
  | @token dot p p' l more more' single rest ih =>
    have both : SimilarStep r (dotAt l p p') (step level begun (.token p l))
        (step level begun' (.token p' l)) := step_similar_token begins single
    rw [all_cons, all_cons]
    exact List.rel_append both.cuts (ih both.begun)
  | @kept dot p p' name more more' stays rest ih =>
    have both : SimilarStep r none (step level begun (.token p (.ident name)))
        (step level begun' (.token p' (.ident name))) :=
      step_similar_name begins fun _ _ => .kept stays
    rw [all_cons, all_cons]
    exact List.rel_append both.cuts (ih both.begun)
  | @other dot p p' name new more more' fresh rest ih =>
    have both : SimilarStep r none (step level begun (.token p (.ident name)))
        (step level begun' (.token p' (.ident new))) :=
      step_similar_name begins fun _ _ => .other fresh
    rw [all_cons, all_cons]
    exact List.rel_append both.cuts (ih both.begun)
  | before fresh rest ih =>
    obtain ⟨begun₂, begins₂, same⟩ := all_similar_before begins fresh _
    rw [same]
    exact ih begins₂
  | @function dot p p' name inner inner' more more' inside rest _ ih =>
    have both : SimilarStep r none (step level begun (.function p name inner))
        (step level begun' (.function p' name inner')) :=
      step_similar_nest (inner_function p name inner) (inner_function p' name inner') rfl rfl begins
        fun _ _ => .function inside
    rw [all_cons, all_cons]
    exact List.rel_append both.cuts (ih both.begun)
  | @block dot p p' bracket inner inner' more more' inside rest _ ih =>
    have both : SimilarStep r none (step level begun (.block p bracket inner))
        (step level begun' (.block p' bracket inner')) := by
      by_cases curly : bracket = .curly
      · subst curly
        exact step_similar_curly begins inside
      · exact step_similar_nest (inner_block curly p inner) (inner_block curly p' inner') rfl rfl
          begins fun _ _ => .block inside
    rw [all_cons, all_cons]
    exact List.rel_append both.cuts (ih both.begun)

end Cut

end ClassMigration.Stylesheet
