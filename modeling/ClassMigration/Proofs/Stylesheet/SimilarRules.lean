import ClassMigration.Proofs.Stylesheet.Similar

/-! Similar values hold similar rules: where the rules of the one can be read, so can those of the other,
one by one, with similar selectors. -/
namespace ClassMigration.Stylesheet

namespace Value

mutual

def depth : Value → Nat
  | token .. => 0
  | function _ _ arguments => depthOf arguments + 1
  | block _ _ content => depthOf content + 1

def depthOf : List Value → Nat
  | [] => 0
  | v :: more => max (depth v) (depthOf more)

end

theorem depth_le_of_mem {v : Value} {vs : List Value} (mem : v ∈ vs) : v.depth ≤ depthOf vs := by
  induction vs with
  | nil => cases mem
  | cons first more ih =>
    rcases List.mem_cons.mp mem with rfl | mem
    · exact Nat.le_max_left _ _
    · exact Nat.le_trans (ih mem) (Nat.le_max_right _ _)

theorem depthOf_lt_of_mem {p : Position} {bracket : Bracket} {content vs : List Value}
    (mem : .block p bracket content ∈ vs) : depthOf content < depthOf vs := depth_le_of_mem mem

end Value

namespace Cut

/-- The values in the block of a cut. -/
def content? : Cut → Option (List Value)
  | rule _ _ content => some content
  | atRule _ content => content
  | fault _ => none

theorem atBlock_content {level : Level} {place : Position} {values content : List Value} {v : Value}
    {cut : Cut} (mem : cut ∈ atBlock level place values v content) : cut.content? = some content := by
  unfold atBlock at mem
  split at mem
  · cases mem
  · rw [List.mem_singleton.mp mem]; rfl

theorem atSemicolon_content {values : List Value} {v : Value} {cut : Cut}
    (mem : cut ∈ atSemicolon values v) : cut.content? = none := by
  unfold atSemicolon at mem
  split at mem
  · cases mem
  · rw [List.mem_singleton.mp mem]; rfl

theorem atEnd_content {level : Level} {values : List Value} {cut : Cut}
    (mem : cut ∈ atEnd level values) : cut.content? = none := by
  unfold atEnd at mem
  split at mem
  · cases mem
  · split at mem
    · cases mem
    · rw [List.mem_singleton.mp mem]; rfl

/-- A step completes a cut with a block only at that block. -/
theorem step_content {level : Level} {begun : Begun} {v : Value} {cut : Cut} {content : List Value}
    (mem : cut ∈ (step level begun v).1) (holds : cut.content? = some content) :
    ∃ p, v = .block p .curly content := by
  have curly : ∀ {inner : List Value}, v.curly? = some inner → cut.content? = some inner →
      ∃ p, v = .block p .curly content := by
    intro inner isCurly same
    obtain rfl : inner = content := Option.some.inj (same.symm.trans holds)
    cases v with
    | token => simp [Value.curly?] at isCurly
    | function => simp [Value.curly?] at isCurly
    | block p bracket _ =>
      cases bracket with
      | curly => exact ⟨p, by rw [Option.some.inj isCurly]⟩
      | square => simp [Value.curly?] at isCurly
      | round => simp [Value.curly?] at isCurly
  cases begun with
  | nothing =>
    dsimp only [step] at mem
    split at mem
    · cases mem
    cases v with
    | token _ lexeme => cases lexeme <;> cases mem
    | function => cases mem
    | block p bracket inner =>
      cases bracket with
      | curly => exact curly rfl (by rw [List.mem_singleton.mp mem]; rfl)
      | square => cases mem
      | round => cases mem
  | qualified place values =>
    dsimp only [step] at mem
    split at mem
    · rw [atSemicolon_content mem] at holds
      cases holds
    cases isCurly : v.curly? with
    | none => rw [isCurly] at mem; cases mem
    | some inner => rw [isCurly] at mem; exact curly isCurly (atBlock_content mem)
  | atRule keyword =>
    dsimp only [step] at mem
    split at mem
    · rw [List.mem_singleton.mp mem] at holds
      cases holds
    cases isCurly : v.curly? with
    | none => rw [isCurly] at mem; cases mem
    | some inner =>
      rw [isCurly] at mem
      exact curly isCurly (by rw [List.mem_singleton.mp mem]; rfl)

theorem all_content {level : Level} {begun : Begun} {vs : List Value} {cut : Cut} {content : List Value}
    (mem : cut ∈ all level begun vs) (holds : cut.content? = some content) :
    ∃ p, .block p .curly content ∈ vs := by
  induction vs generalizing begun with
  | nil =>
    cases begun with
    | nothing => simp [all] at mem
    | qualified place values =>
      rw [atEnd_content (by simpa [all] using mem)] at holds
      cases holds
    | atRule keyword =>
      rw [List.mem_singleton.mp mem] at holds
      cases holds
  | cons v more ih =>
    rw [all_cons] at mem
    rcases List.mem_append.mp mem with mem | mem
    · obtain ⟨p, rfl⟩ := step_content mem holds
      exact ⟨p, List.mem_cons_self⟩
    · obtain ⟨p, mem⟩ := ih mem
      exact ⟨p, List.mem_cons_of_mem v mem⟩

end Cut

namespace Item

def ofCut (depth : Nat) : Cut → Item
  | .rule place prelude content =>
    .rule place prelude (if content.any (·.curly?.isSome) then ofValues depth .block content else [])
  | .atRule keyword content =>
    .atRule keyword (if groupingKeywords.contains keyword then
      content.map (ofValues depth .rules) else none)
  | .fault found => .fault found

theorem ofValues_succ (depth : Nat) (level : Cut.Level) (values : List Value) :
    ofValues (depth + 1) level values = (Cut.all level .nothing values).map (ofCut depth) := by
  rw [ofValues]
  refine List.map_congr_left fun cut _ => ?_
  cases cut <;> rfl

variable {index : LineIndex} {atRules : List Text}

theorem rulesOf_cons_ok {item : Item} {more : List Item} {rules : List StyleRule} :
    rulesOf index atRules (item :: more) = .ok rules ↔
      ∃ first rest, Item.rules index atRules item = .ok first ∧
        rulesOf index atRules more = .ok rest ∧ rules = first ++ rest := by
  rw [rulesOf]
  cases Item.rules index atRules item with
  | error => simp [bind, Except.bind]
  | ok first =>
    cases rulesOf index atRules more with
    | error => simp [bind, Except.bind]
    | ok rest => simp [bind, Except.bind, pure, Except.pure, eq_comm]

theorem rules_rule_ok {place : Position} {prelude : List Value} {nested : List Item}
    {rules : List StyleRule} :
    Item.rules index atRules (.rule place prelude nested) = .ok rules ↔
      ∃ inner, rulesOf index atRules nested = .ok inner ∧
        rules = ⟨(serialized prelude).trimmed, Part.ofValues index prelude, place, atRules⟩ :: inner := by
  rw [Item.rules]
  cases rulesOf index atRules nested with
  | error => simp [bind, Except.bind]
  | ok inner => simp [bind, Except.bind, pure, Except.pure, eq_comm]

end Item

/-- Rules whose selectors are similar. -/
def SimilarRule (r : Respect) (index index' : LineIndex) (rule rule' : StyleRule) : Prop :=
  ∃ prelude prelude', Similar r none prelude prelude' ∧
    rule.parts = Part.ofValues index prelude ∧ rule'.parts = Part.ofValues index' prelude'

namespace Item

variable {r : Respect} {index index' : LineIndex}

/-- Where the rules of values up to a depth can be read, so can those of similar values, and they are similar. -/
def SimilarWithin (r : Respect) (index index' : LineIndex) (depth depth' : Nat) : Prop :=
  ∀ {level vs vs' atRules rules}, Similar r none vs vs' → Value.depthOf vs < depth →
    Value.depthOf vs' < depth' → rulesOf index atRules (ofValues depth level vs) = .ok rules →
    ∃ rules', rulesOf index' atRules (ofValues depth' level vs') = .ok rules' ∧
      List.Forall₂ (SimilarRule r index index') rules rules'

/-- A cut holds rules similar to those of a similar cut, if similar values inside them do. -/
theorem rules_similar_cut {depth depth' : Nat} (inner : SimilarWithin r index index' depth depth')
    {cut cut' : Cut} (similar : Cut.SimilarCut r cut cut')
    (shallow : ∀ content, cut.content? = some content → Value.depthOf content < depth)
    (shallow' : ∀ content, cut'.content? = some content → Value.depthOf content < depth')
    {atRules : List Text} {rules : List StyleRule}
    (ok : Item.rules index atRules (ofCut depth cut) = .ok rules) :
    ∃ rules', Item.rules index' atRules (ofCut depth' cut') = .ok rules' ∧
      List.Forall₂ (SimilarRule r index index') rules rules' := by
  cases similar with
  | @rule p p' prelude prelude' content content' before inside =>
    rw [ofCut, rules_rule_ok] at ok
    obtain ⟨rules, okInner, rfl⟩ := ok
    have nested : ∃ rules', rulesOf index' atRules (if content'.any (·.curly?.isSome) then
        ofValues depth' .block content' else []) = .ok rules' ∧
          List.Forall₂ (SimilarRule r index index') rules rules' := by
      rw [← Cut.any_curly_similar inside]
      by_cases holds : content.any (·.curly?.isSome)
      · rw [if_pos holds] at okInner ⊢
        exact inner inside (shallow content rfl) (shallow' content' rfl) okInner
      · rw [if_neg holds] at okInner ⊢
        cases okInner
        exact ⟨[], rfl, .nil⟩
    obtain ⟨rules', okInner', similarInner⟩ := nested
    refine ⟨⟨(serialized prelude').trimmed, Part.ofValues index' prelude', p', atRules⟩ :: rules', ?_,
      .cons ⟨prelude, prelude', before, rfl, rfl⟩ similarInner⟩
    rw [ofCut, rules_rule_ok]
    exact ⟨rules', okInner', rfl⟩
  | @alone keyword =>
    have none : ∀ depth index, Item.rules index atRules (ofCut depth (.atRule keyword none)) = .ok [] := by
      intro depth index
      rw [ofCut, Option.map_none, ite_self]
      rfl
    rw [none] at ok
    cases ok
    exact ⟨[], none _ _, .nil⟩
  | @atRule keyword content content' inside =>
    rw [ofCut, Option.map_some] at ok ⊢
    by_cases groups : groupingKeywords.contains keyword
    · rw [if_pos groups] at ok ⊢
      exact inner inside (shallow content rfl) (shallow' content' rfl) ok
    · rw [if_neg groups] at ok ⊢
      cases ok
      exact ⟨[], rfl, .nil⟩
  | fault => cases ok

/-- Similar cuts hold similar rules, if similar values inside them do. -/
theorem rulesOf_similar_cuts {depth depth' : Nat} (inner : SimilarWithin r index index' depth depth')
    {cuts cuts' : List Cut} (similar : List.Forall₂ (Cut.SimilarCut r) cuts cuts')
    (shallow : ∀ cut ∈ cuts, ∀ content, cut.content? = some content → Value.depthOf content < depth)
    (shallow' : ∀ cut ∈ cuts', ∀ content, cut.content? = some content →
      Value.depthOf content < depth') {atRules : List Text} {rules : List StyleRule}
    (ok : rulesOf index atRules (cuts.map (ofCut depth)) = .ok rules) :
    ∃ rules', rulesOf index' atRules (cuts'.map (ofCut depth')) = .ok rules' ∧
      List.Forall₂ (SimilarRule r index index') rules rules' := by
  induction similar generalizing rules with
  | nil => exact ⟨[], rfl, by cases ok; exact .nil⟩
  | @cons cut cut' cuts cuts' same _ ihCuts =>
    rw [List.map_cons, rulesOf_cons_ok] at ok
    obtain ⟨first, rest, okFirst, okRest, rfl⟩ := ok
    obtain ⟨rest', okRest', similarRest⟩ := ihCuts
      (fun cut mem => shallow cut (List.mem_cons_of_mem _ mem))
      (fun cut mem => shallow' cut (List.mem_cons_of_mem _ mem)) okRest
    obtain ⟨first', okFirst', similarFirst⟩ := rules_similar_cut inner same (shallow cut List.mem_cons_self)
      (shallow' cut' List.mem_cons_self) okFirst
    refine ⟨first' ++ rest', ?_, List.rel_append similarFirst similarRest⟩
    rw [List.map_cons, rulesOf_cons_ok]
    exact ⟨first', rest', okFirst', okRest', rfl⟩

theorem rulesOf_similar {depth depth' : Nat} {level : Cut.Level} {vs vs' : List Value}
    {atRules : List Text} {rules : List StyleRule} (similar : Similar r none vs vs')
    (shallow : Value.depthOf vs < depth) (shallow' : Value.depthOf vs' < depth')
    (ok : rulesOf index atRules (ofValues depth level vs) = .ok rules) :
    ∃ rules', rulesOf index' atRules (ofValues depth' level vs') = .ok rules' ∧
      List.Forall₂ (SimilarRule r index index') rules rules' := by
  induction depth generalizing depth' level vs vs' atRules rules with
  | zero => exact absurd shallow (Nat.not_lt_zero _)
  | succ depth ih =>
    obtain ⟨depth', rfl⟩ : ∃ k, depth' = k + 1 := ⟨depth' - 1, by omega⟩
    rw [ofValues_succ] at ok ⊢
    have inside : ∀ {level values} {limit : Nat}, Value.depthOf values < limit + 1 →
        ∀ cut ∈ Cut.all level .nothing values, ∀ content, cut.content? = some content →
          Value.depthOf content < limit := by
      intro level values limit below cut mem content holds
      obtain ⟨p, mem⟩ := Cut.all_content mem holds
      have deeper := Value.depthOf_lt_of_mem mem
      omega
    exact rulesOf_similar_cuts ih (Cut.all_similar similar .nothing) (inside shallow)
      (inside shallow') ok

end Item

end ClassMigration.Stylesheet
