import ClassMigration.Proofs.Stylesheet.Mentions

/-! The classes of a stylesheet's selectors are among the names after its dots, in the same order. -/
namespace ClassMigration.Stylesheet

open Value (mentions mentionsOf dot?)

namespace Value

/-- The dot at the end of values that follow another dot. -/
def endDot (dot : Option Position) (values : List Value) : Option Position :=
  match values.getLast? with
  | some v => dot? v
  | none => dot

theorem mentionsOf_append (dot : Option Position) (vs ws : List Value) :
    mentionsOf dot (vs ++ ws) = mentionsOf dot vs ++ mentionsOf (endDot dot vs) ws := by
  induction vs generalizing dot with
  | nil => rfl
  | cons v more ih =>
    have last : endDot dot (v :: more) = endDot (dot? v) more := by
      cases more with
      | nil => rfl
      | cons w more =>
        rw [endDot, List.getLast?_cons_cons, endDot]
        cases last : (w :: more).getLast? with
        | none => simp at last
        | some u => rfl
    rw [List.cons_append, mentionsOf, mentionsOf, ih, last, List.append_assoc]

theorem mentions_none_sublist (dot : Option Position) (v : Value) :
    (mentions none v).Sublist (mentions dot v) := by
  cases v with
  | token p l =>
    cases l with
    | ident name => exact List.nil_sublist _
    | _ => exact .refl _
  | function => exact .refl _
  | block => exact .refl _

end Value

namespace Cut

def mentions : Cut → List Mention
  | rule _ prelude content => mentionsOf none prelude ++ mentionsOf none content
  | atRule _ (some content) => mentionsOf none content
  | atRule _ none => []
  | fault _ => []

def Begun.mentions : Begun → List Mention
  | .qualified _ values => mentionsOf none values.reverse
  | _ => []

/-- What has begun ends with this dot. -/
def Begun.EndsAt (dot : Option Position) : Begun → Prop
  | .qualified _ values => ∃ v more, values = v :: more ∧ dot? v = dot
  | _ => True

theorem mentions_of_faults {cuts : List Cut} (faults : ∀ cut ∈ cuts, ∃ found, cut = .fault found) :
    cuts.flatMap mentions = [] := by
  rw [List.flatMap_eq_nil_iff]
  intro cut mem
  obtain ⟨found, rfl⟩ := faults cut mem
  rfl

theorem atSemicolon_mentions (values : List Value) (v : Value) :
    (atSemicolon values v).flatMap mentions = [] := by
  refine mentions_of_faults fun cut mem => ?_
  unfold atSemicolon at mem
  split at mem
  · cases mem
  · exact ⟨_, List.mem_singleton.mp mem⟩

theorem atEnd_mentions (level : Level) (values : List Value) :
    (atEnd level values).flatMap mentions = [] := by
  refine mentions_of_faults fun cut mem => ?_
  unfold atEnd at mem
  split at mem
  · cases mem
  · split at mem
    · cases mem
    · exact ⟨_, List.mem_singleton.mp mem⟩

theorem atBlock_mentions (level : Level) (place : Position) (values content : List Value) (v : Value) :
    ((atBlock level place values v content).flatMap mentions).Sublist
      (mentionsOf none values.reverse ++ mentionsOf none content) := by
  unfold atBlock
  split
  · exact List.nil_sublist _
  · simp [mentions]

theorem endDot_reverse {dot : Option Position} {v : Value} {more : List Value} (ends : dot? v = dot) :
    Value.endDot none (v :: more).reverse = dot := by
  simp [Value.endDot, ends]

theorem mentions_curly {v : Value} {content : List Value} (isCurly : v.curly? = some content)
    (dot : Option Position) : Value.mentions dot v = mentionsOf none content := by
  cases v with
  | token => cases isCurly
  | function => cases isCurly
  | block p bracket inner =>
    cases bracket with
    | curly => rw [← Option.some.inj isCurly]; rfl
    | square => cases isCurly
    | round => cases isCurly

/-- Where nothing has begun, a step keeps the names of its value in order. -/
theorem step_nothing_mentions (level : Level) (dot : Option Position) (v : Value) :
    ((step level .nothing v).1.flatMap mentions ++ (step level .nothing v).2.mentions).Sublist
        (Value.mentions dot v) ∧
      (step level .nothing v).2.EndsAt (dot? v) := by
  have begins : ∀ place, (Begun.mentions (.qualified place [v])).Sublist (Value.mentions dot v) := by
    intro place
    simpa [Begun.mentions, mentionsOf] using Value.mentions_none_sublist dot v
  cases skipped : skips level v with
  | true =>
    rw [step_nothing_skips skipped]
    exact ⟨List.nil_sublist _, trivial⟩
  | false =>
    cases v with
    | token p l =>
      by_cases keyword : ∃ name, l = .atKeyword name
      · obtain ⟨name, rfl⟩ := keyword
        rw [step_nothing_keyword p name skipped]
        exact ⟨List.nil_sublist _, trivial⟩
      · rw [step_nothing_token skipped fun name same => keyword ⟨name, same⟩]
        exact ⟨begins p, .token p l, [], rfl, rfl⟩
    | function p name arguments =>
      rw [step_nothing_nest rfl rfl]
      exact ⟨begins p, .function p name arguments, [], rfl, rfl⟩
    | block p bracket content =>
      by_cases isCurly : bracket = .curly
      · subst isCurly
        rw [step_nothing_curly, mentions_curly rfl]
        refine ⟨?_, trivial⟩
        simp [mentions, mentionsOf, Begun.mentions]
      · rw [step_nothing_nest rfl (inner_block isCurly p content).curly]
        exact ⟨begins p, .block p bracket content, [], rfl, rfl⟩

/-- A step keeps the names of what had begun and of its value in order. -/
theorem step_mentions {level : Level} {begun : Begun} {dot : Option Position} (ends : begun.EndsAt dot)
    (v : Value) :
    ((step level begun v).1.flatMap mentions ++ (step level begun v).2.mentions).Sublist
        (begun.mentions ++ Value.mentions dot v) ∧
      (step level begun v).2.EndsAt (dot? v) := by
  cases begun with
  | nothing => exact step_nothing_mentions level dot v
  | qualified place values =>
    dsimp only [step]
    split
    · rw [atSemicolon_mentions]
      exact ⟨List.nil_sublist _, trivial⟩
    cases isCurly : v.curly? with
    | some content =>
      refine ⟨?_, trivial⟩
      rw [mentions_curly isCurly]
      simpa [Begun.mentions] using atBlock_mentions level place values content v
    | none =>
      obtain ⟨last, before, rfl, isDot⟩ := ends
      refine ⟨?_, v, last :: before, rfl, rfl⟩
      have whole : (v :: last :: before).reverse = (last :: before).reverse ++ [v] := by simp
      rw [Begun.mentions, whole, Value.mentionsOf_append, endDot_reverse isDot]
      simp [Begun.mentions, mentionsOf]
  | atRule keyword =>
    dsimp only [step]
    split
    · exact ⟨List.nil_sublist _, trivial⟩
    cases isCurly : v.curly? with
    | some content =>
      refine ⟨?_, trivial⟩
      rw [mentions_curly isCurly]
      simp [mentions, Begun.mentions]
    | none => exact ⟨List.nil_sublist _, trivial⟩

theorem all_mentions {level : Level} {begun : Begun} {dot : Option Position} (ends : begun.EndsAt dot)
    (vs : List Value) :
    ((all level begun vs).flatMap mentions).Sublist (begun.mentions ++ mentionsOf dot vs) := by
  induction vs generalizing begun dot with
  | nil =>
    cases begun with
    | nothing => simp [all]
    | qualified place values => simp [all, atEnd_mentions]
    | atRule keyword => simp [all, mentions]
  | cons v more ih =>
    obtain ⟨here, next⟩ := @step_mentions level begun dot ends v
    have rest := ih next
    rw [all_cons, List.flatMap_append, mentionsOf, ← List.append_assoc]
    refine ((List.Sublist.refl _).append rest).trans ?_
    rw [← List.append_assoc]
    exact here.append (.refl _)

end Cut

/-- The classes of some rules are made by some of the mentions, in order. -/
def MadeBy (index : LineIndex) (rules : List StyleRule) (mentions : List Mention) : Prop :=
  ∃ ms : List Mention, ms.Sublist mentions ∧
    rules.flatMap (fun rule => Part.classesOf rule.parts) = ms.map (Mention.part index)

namespace MadeBy

variable {index : LineIndex}

theorem nil (mentions : List Mention) : MadeBy index [] mentions := ⟨[], List.nil_sublist _, rfl⟩

theorem mono {rules : List StyleRule} {mentions more : List Mention} (made : MadeBy index rules mentions)
    (sub : mentions.Sublist more) : MadeBy index rules more := by
  obtain ⟨ms, inside, same⟩ := made
  exact ⟨ms, inside.trans sub, same⟩

theorem append {rules rules' : List StyleRule} {mentions mentions' : List Mention}
    (made : MadeBy index rules mentions) (made' : MadeBy index rules' mentions') :
    MadeBy index (rules ++ rules') (mentions ++ mentions') := by
  obtain ⟨ms, inside, same⟩ := made
  obtain ⟨ms', inside', same'⟩ := made'
  exact ⟨ms ++ ms', inside.append inside', by simp [same, same']⟩

theorem one {rule : StyleRule} {prelude : List Value} (parts : rule.parts = Part.ofValues index prelude) :
    MadeBy index [rule] (mentionsOf none prelude) := by
  refine ⟨(Value.selectedOf .other prelude).filter (Mention.joined index),
    List.filter_sublist.trans (Value.selectedOf_sublist .other prelude), ?_⟩
  simp [parts, Part.classesOf_ofValues, classParts]

end MadeBy

namespace Item

variable {index : LineIndex} {atRules : List Text}

theorem madeBy_cuts {depth : Nat}
    (ih : ∀ {level vs atRules rules}, rulesOf index atRules (ofValues depth level vs) = .ok rules →
      MadeBy index rules (mentionsOf none vs))
    {cuts : List Cut} {rules : List StyleRule}
    (ok : rulesOf index atRules (cuts.map (ofCut depth)) = .ok rules) :
    MadeBy index rules (cuts.flatMap Cut.mentions) := by
  induction cuts generalizing rules with
  | nil => cases ok; exact .nil _
  | cons cut cuts ihCuts =>
    rw [List.map_cons, rulesOf_cons_ok] at ok
    obtain ⟨first, rest, okFirst, okRest, rfl⟩ := ok
    refine MadeBy.append ?_ (ihCuts okRest)
    cases cut with
    | rule p prelude content =>
      rw [ofCut, rules_rule_ok] at okFirst
      obtain ⟨inner, okInner, rfl⟩ := okFirst
      have nested : MadeBy index inner (mentionsOf none content) := by
        by_cases holds : content.any (·.curly?.isSome)
        · rw [if_pos holds] at okInner
          exact ih okInner
        · rw [if_neg holds] at okInner
          cases okInner
          exact .nil _
      exact (MadeBy.one rfl).append nested
    | atRule keyword content =>
      rw [ofCut] at okFirst
      by_cases groups : groupingKeywords.contains keyword
      · rw [if_pos groups] at okFirst
        cases content with
        | none => cases okFirst; exact .nil _
        | some content => exact ih okFirst
      · rw [if_neg groups] at okFirst
        cases okFirst
        exact .nil _
    | fault found => cases okFirst

/-- The classes of the rules in a list of values are among its mentions. -/
theorem madeBy_ofValues {depth : Nat} {level : Cut.Level} {vs : List Value} {rules : List StyleRule}
    (ok : rulesOf index atRules (ofValues depth level vs) = .ok rules) :
    MadeBy index rules (mentionsOf none vs) := by
  induction depth generalizing level vs atRules rules with
  | zero => cases ok; exact .nil _
  | succ depth ih =>
    rw [ofValues_succ] at ok
    have begins : Cut.Begun.nothing.EndsAt none := trivial
    exact (madeBy_cuts ih ok).mono (Cut.all_mentions begins vs)

end Item

end ClassMigration.Stylesheet
