import ClassMigration.Stylesheet.Rule

/-! Cutting values into rules, one value at a time. -/
namespace ClassMigration.Stylesheet.Cut

def skips (level : Level) (v : Value) : Bool :=
  v.isGap || (level = .sheet && isComment v) || (level = .block && v.isMark ";")

/-- What a value completes, and what has begun after it. -/
def step (level : Level) : Begun → Value → List Cut × Begun
  | .nothing, v =>
    if skips level v then ([], .nothing)
    else match v with
      | .token _ (.atKeyword name) => ([], .atRule (Text.lowered name))
      | .block place .curly content => ([.rule place [] content], .nothing)
      | v => ([], .qualified v.place [v])
  | .qualified place values, v =>
    if level = .block && v.isMark ";" then (atSemicolon values v, .nothing)
    else match v.curly? with
      | some content => (atBlock level place values v content, .nothing)
      | none => ([], .qualified place (v :: values))
  | .atRule keyword, v =>
    if v.isMark ";" then ([.atRule keyword none], .nothing)
    else match v.curly? with
      | some content => ([.atRule keyword (some content)], .nothing)
      | none => ([], .atRule keyword)

theorem all_cons (level : Level) (begun : Begun) (v : Value) (more : List Value) :
    all level begun (v :: more) =
      (step level begun v).1 ++ all level (step level begun v).2 more := by
  rw [all.eq_def level begun (v :: more)]
  cases begun with
  | nothing =>
    dsimp only [step]
    change (if skips level v then _ else _) = _
    by_cases skipped : skips level v
    · rw [if_pos skipped, if_pos skipped]
      rfl
    · rw [if_neg skipped, if_neg skipped]
      cases v with
      | token place lexeme => cases lexeme <;> rfl
      | function => rfl
      | block place bracket content => cases bracket <;> rfl
  | qualified place values =>
    dsimp only [step]
    by_cases stops : (level = .block && v.isMark ";") = true
    · rw [if_pos stops, if_pos stops]
    · rw [if_neg stops, if_neg stops]
      cases v.curly? <;> rfl
  | atRule keyword =>
    dsimp only [step]
    by_cases ends : v.isMark ";"
    · rw [if_pos ends, if_pos ends]
      rfl
    · rw [if_neg ends, if_neg ends]
      cases v.curly? <;> rfl

/-- A value that neither ends a rule nor opens its block. -/
structure Inner (v : Value) : Prop where
  semicolon : v.isMark ";" = false
  curly : v.curly? = none

theorem inner_token {l : Lexeme} (other : l ≠ .mark [.char ';']) (p : Position) : Inner (.token p l) :=
  ⟨by simpa [Value.isMark, Value.lexeme?, String.codePoints] using other, rfl⟩

theorem inner_function (p : Position) (name : Text) (arguments : List Value) :
    Inner (.function p name arguments) := ⟨rfl, rfl⟩

theorem inner_block {bracket : Bracket} (other : bracket ≠ .curly) (p : Position)
    (content : List Value) : Inner (.block p bracket content) := by
  cases bracket with
  | curly => exact absurd rfl other
  | square => exact ⟨rfl, rfl⟩
  | round => exact ⟨rfl, rfl⟩

section

variable {level : Level} {v : Value}

theorem step_nothing_skips (skipped : skips level v = true) :
    step level .nothing v = ([], .nothing) := if_pos skipped

theorem step_nothing_keyword (p : Position) (name : Text)
    (skipped : skips level (.token p (.atKeyword name)) = false) :
    step level .nothing (.token p (.atKeyword name)) = ([], .atRule (Text.lowered name)) := by
  simp [step, skipped]

theorem step_nothing_token {l : Lexeme} {p : Position} (skipped : skips level (.token p l) = false)
    (plain : ∀ name, l ≠ .atKeyword name) :
    step level .nothing (.token p l) = ([], .qualified p [.token p l]) := by
  cases l <;> first | exact absurd rfl (plain _) | simp [step, skipped, Value.place]

theorem step_qualified_inner (inner : Inner v) (place : Position) (values : List Value) :
    step level (.qualified place values) v = ([], .qualified place (v :: values)) := by
  simp [step, inner.semicolon, inner.curly]

theorem step_atRule_inner (inner : Inner v) (keyword : Text) :
    step level (.atRule keyword) v = ([], .atRule keyword) := by
  simp [step, inner.semicolon, inner.curly]

theorem skips_nest (noLexeme : v.lexeme? = none) : skips level v = false := by
  simp [skips, Value.isGap, isComment, Value.isMark, noLexeme]

theorem step_nothing_nest (noLexeme : v.lexeme? = none) (curly : v.curly? = none) :
    step level .nothing v = ([], .qualified v.place [v]) := by
  have skipped : skips level v = false := skips_nest noLexeme
  cases v with
  | token => simp [Value.lexeme?] at noLexeme
  | function => simp [step, skipped]
  | block place bracket content =>
    cases bracket with
    | curly => simp [Value.curly?] at curly
    | square => simp [step, skipped]
    | round => simp [step, skipped]

theorem step_nothing_curly (p : Position) (content : List Value) :
    step level .nothing (.block p .curly content) = ([.rule p [] content], .nothing) := by
  have skipped : skips level (.block p .curly content) = false := skips_nest rfl
  simp [step, skipped]

theorem step_qualified_curly (place p : Position) (values content : List Value) :
    step level (.qualified place values) (.block p .curly content) =
      (atBlock level place values (.block p .curly content) content, .nothing) := by
  simp [step, Value.isMark, Value.lexeme?, Value.curly?]

end

end ClassMigration.Stylesheet.Cut
