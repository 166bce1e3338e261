import ClassMigration.Proofs.DocumentOrder
import ClassMigration.Proofs.SheetStability

/-! The order in which the rules of a stylesheet are read. A style rule comes before the rules nested in it,
at-rules give their names to the rules inside them, and the first fault ends the reading. -/
namespace ClassMigration.Stylesheet

/-- What is read from a listing: all of it, or its first fault. -/
def Reads {ε α : Type} (listing : List (Except ε α)) : Except ε (List α) → Prop
  | .ok all => listing = all.map .ok
  | .error fault => ∃ (front : List α) (back : List (Except ε α)),
      listing = front.map .ok ++ .error fault :: back

namespace Reads

variable {ε α : Type} {first second : List (Except ε α)} {result other : Except ε (List α)}

theorem append (one : Reads first result) (two : Reads second other) :
    Reads (first ++ second) (do let front ← result; let back ← other; return front ++ back) := by
  cases result with
  | error fault =>
    obtain ⟨front, back, rfl⟩ := one
    exact ⟨front, back ++ second, by rw [List.append_assoc, List.cons_append]⟩
  | ok all =>
    obtain rfl : first = all.map .ok := one
    cases other with
    | error fault =>
      obtain ⟨front, back, rfl⟩ := two
      exact ⟨all ++ front, back, by rw [List.map_append, List.append_assoc]⟩
    | ok rest =>
      obtain rfl : second = rest.map .ok := two
      exact List.map_append.symm

theorem cons (a : α) (one : Reads first result) :
    Reads (.ok a :: first) (do let inner ← result; return a :: inner) := by
  cases result with
  | error fault =>
    obtain ⟨front, back, rfl⟩ := one
    exact ⟨a :: front, back, rfl⟩
  | ok all => exact congrArg (Except.ok a :: ·) (show first = all.map .ok from one)

end Reads

namespace Cut

/-- The cuts that a reading comes to in a cut, by their addresses in it and the at-rules on the way, the
outermost first. It enters the block of a style rule if there is a block in that, and the at-rules that hold
rules. -/
inductive Visits : Cut → Address → List Text → Cut → Prop
  | self {cut : Cut} : Visits cut [] [] cut
  | inRule {place : Position} {prelude content : List Value} {i : Nat} {inner cut : Cut}
      {address : Address} {names : List Text} (holds : ∃ v ∈ content, v.curly?.isSome)
      (part : (all .block .nothing content)[i]? = some inner) (visits : Visits inner address names cut) :
      Visits (.rule place prelude content) (i :: address) names cut
  | inAtRule {keyword : Text} {content : List Value} {i : Nat} {inner cut : Cut} {address : Address}
      {names : List Text} (groups : keyword ∈ groupingKeywords)
      (part : (all .rules .nothing content)[i]? = some inner) (visits : Visits inner address names cut) :
      Visits (.atRule keyword (some content)) (i :: address) (keyword :: names) cut

/-- What a cut itself has to tell inside some at-rules: a style rule or a fault. -/
def told? (index : LineIndex) (atRules : List Text) : Cut → Option (Except RuleFault StyleRule)
  | .rule place prelude _ =>
    some (.ok ⟨(serialized prelude).trimmed, Part.ofValues index prelude, place, atRules⟩)
  | .atRule .. => none
  | .fault found => some (.error found)

/-- What is told at an address in a cut that stands inside some at-rules. -/
def Tells (index : LineIndex) (atRules : List Text) (outer : Cut) (address : Address)
    (told : Except RuleFault StyleRule) : Prop :=
  ∃ names cut, Visits outer address names cut ∧ cut.told? index (atRules ++ names) = some told

def TellsIn (index : LineIndex) (atRules : List Text) (cuts : List Cut) (address : Address)
    (told : Except RuleFault StyleRule) : Prop :=
  ∃ i rest outer, address = i :: rest ∧ cuts[i]? = some outer ∧ Tells index atRules outer rest told

def inner : Cut → List Cut
  | .rule _ _ content => if content.any (·.curly?.isSome) then all .block .nothing content else []
  | .atRule keyword (some content) =>
    if groupingKeywords.contains keyword then all .rules .nothing content else []
  | _ => []

/-- The name that a cut adds for what is in it. -/
def added : Cut → List Text
  | .rule .. => []
  | .atRule keyword _ => [keyword]
  | .fault _ => []

variable {index : LineIndex} {atRules : List Text}

/-- A cut tells what it has to tell itself, and what the cuts in it tell. -/
theorem tells_iff (outer : Cut) (address : Address) (told : Except RuleFault StyleRule) :
    Tells index atRules outer address told ↔
      address = [] ∧ outer.told? index atRules = some told ∨
        TellsIn index (atRules ++ outer.added) outer.inner address told := by
  constructor
  · rintro ⟨names, cut, visits, tells⟩
    cases visits with
    | self => exact .inl ⟨rfl, by rwa [List.append_nil] at tells⟩
    | inRule holds part visits =>
      refine .inr ⟨_, _, _, rfl, ?_, names, cut, visits, by rwa [added, List.append_nil]⟩
      rw [inner, if_pos (List.any_eq_true.mpr holds)]
      exact part
    | @inAtRule keyword content i first cut address names groups part visits =>
      refine .inr ⟨_, _, _, rfl, ?_, names, cut, visits, by rwa [added, List.append_assoc]⟩
      rw [inner, if_pos (List.contains_iff_mem.mpr groups)]
      exact part
  · rintro (⟨rfl, tells⟩ | ⟨i, rest, first, rfl, part, names, cut, visits, tells⟩)
    · exact ⟨[], outer, .self, by rwa [List.append_nil]⟩
    · cases outer with
      | rule place prelude content =>
        rw [added, List.append_nil] at tells
        rw [inner] at part
        split at part
        · next holds => exact ⟨names, cut, .inRule (List.any_eq_true.mp holds) part visits, tells⟩
        · cases part
      | atRule keyword content =>
        cases content with
        | none => cases part
        | some content =>
          rw [added, List.append_assoc] at tells
          rw [inner] at part
          split at part
          · next groups =>
            exact ⟨keyword :: names, cut, .inAtRule (List.contains_iff_mem.mp groups) part visits, tells⟩
          · cases part
      | fault => cases part

section

variable {level : Level} {begun : Begun} {v : Value} {keyword : Text} {content : Option (List Value)}

theorem begun_of_mem_step (mem : .atRule keyword content ∈ (step level begun v).1) :
    begun = .atRule keyword := by
  cases begun with
  | nothing =>
    dsimp only [step] at mem
    split at mem
    · cases mem
    · split at mem <;> simp at mem
  | qualified place values =>
    dsimp only [step] at mem
    split at mem
    · unfold atSemicolon missingBlock at mem
      split at mem <;> simp at mem
    · cases curly : v.curly? with
      | none => simp [curly] at mem
      | some inner =>
        rw [curly] at mem
        unfold atBlock at mem
        split at mem <;> simp at mem
  | atRule other =>
    dsimp only [step] at mem
    split at mem
    · simp_all
    · cases curly : v.curly? with
      | none => simp [curly] at mem
      | some inner => simp_all

/-- An at-rule begins with an at-keyword and goes by its lower-case name. -/
theorem begun_of_step (begins : (step level begun v).2 = .atRule keyword) :
    begun = .atRule keyword ∨
      ∃ place name, v = .token place (.atKeyword name) ∧ keyword = Text.lowered name := by
  cases begun with
  | nothing =>
    dsimp only [step] at begins
    split at begins
    · cases begins
    · split at begins
      · next place name _ => exact .inr ⟨place, name, rfl, (Begun.atRule.inj begins).symm⟩
      · cases begins
      · cases begins
  | qualified place values =>
    dsimp only [step] at begins
    split at begins
    · cases begins
    · cases curly : v.curly? <;> simp [curly] at begins
  | atRule other =>
    dsimp only [step] at begins
    split at begins
    · cases begins
    · cases curly : v.curly? <;> simp_all

/-- At-rules that are cut out go by the lower-case names of the at-keywords among the values. -/
theorem keyword_of_mem_all {vs : List Value} (mem : .atRule keyword content ∈ all level begun vs) :
    begun = .atRule keyword ∨
      ∃ place name, .token place (.atKeyword name) ∈ vs ∧ keyword = Text.lowered name := by
  induction vs generalizing begun with
  | nil =>
    cases begun with
    | nothing => simp [all] at mem
    | qualified place values => cases values <;> simp_all [all, atEnd, missingBlock]
    | atRule other => simp_all [all]
  | cons v more ih =>
    rw [all_cons] at mem
    rcases List.mem_append.mp mem with completed | later
    · exact .inl (begun_of_mem_step completed)
    · rcases ih later with begins | ⟨place, name, among, same⟩
      · rcases begun_of_step begins with already | ⟨place, name, rfl, same⟩
        · exact .inl already
        · exact .inr ⟨place, name, List.mem_cons_self, same⟩
      · exact .inr ⟨place, name, List.mem_cons_of_mem v among, same⟩

end

end Cut

namespace Item

def nested : Item → List Item
  | rule _ _ items => items
  | atRule _ items => items.getD []
  | fault _ => []

variable {index : LineIndex} {atRules : List Text} {depth : Nat} {outer : Cut}

/-- What cuts tell can be listed in order, and their items are read as the listing says. -/
def Listed (index : LineIndex) (atRules : List Text) (cuts : List Cut) (items : List Item) : Prop :=
  ∃ listing, InOrder (Cut.TellsIn index atRules cuts) listing ∧
    Reads listing (rulesOf index atRules items)

theorem listed_nil : Listed index atRules [] [] := by
  refine ⟨[], .nil ?_, rfl⟩
  rintro address told ⟨i, rest, first, -, part, -⟩
  cases part

theorem listed_inner (inside : ∀ level content, outer.content? = some content →
      Listed index atRules (Cut.all level .nothing content) (ofValues depth level content)) :
    Listed index atRules outer.inner (ofCut depth outer).nested := by
  cases outer with
  | rule place prelude content =>
    rw [Cut.inner, ofCut, nested]
    split
    · exact inside .block content rfl
    · exact listed_nil
  | atRule keyword content =>
    cases content with
    | none =>
      rw [ofCut, Option.map_none, ite_self]
      exact listed_nil
    | some content =>
      rw [Cut.inner, ofCut]
      split
      · exact inside .rules content rfl
      · exact listed_nil
  | fault => exact listed_nil

/-- A cut tells its own first, and nothing comes after a fault. -/
theorem reads_told {listing : List (Except RuleFault StyleRule)}
    (reads : Reads listing (rulesOf index (atRules ++ outer.added) (ofCut depth outer).nested)) :
    Reads ((outer.told? index atRules).toList ++ listing) (rules index atRules (ofCut depth outer)) := by
  cases outer with
  | rule place prelude content =>
    rw [Cut.added, List.append_nil] at reads
    rw [ofCut, rules]
    exact reads.cons _
  | atRule keyword content =>
    rw [ofCut] at reads ⊢
    cases entered : (if groupingKeywords.contains keyword then content.map (ofValues depth .rules)
      else none) with
    | none =>
      rw [entered] at reads
      rw [rules]
      exact reads
    | some items =>
      rw [entered] at reads
      rw [rules]
      exact reads
  | fault found => exact ⟨[], listing, rfl⟩

theorem listed_cut (inside : ∀ names level content, outer.content? = some content →
      Listed index names (Cut.all level .nothing content) (ofValues depth level content)) :
    ∃ listing, InOrder (Cut.Tells index atRules outer) listing ∧
      Reads listing (rules index atRules (ofCut depth outer)) := by
  obtain ⟨listing, inOrder, reads⟩ := listed_inner (inside (atRules ++ outer.added))
  refine ⟨(outer.told? index atRules).toList ++ listing, ?_, reads_told reads⟩
  apply (inOrder.node (outer.told? index atRules) ?_).congr
  · intro address told
    exact (Cut.tells_iff outer address told).symm
  · rintro told ⟨i, rest, first, empty, -⟩
    cases empty

theorem listed_cuts {cuts : List Cut}
    (each : ∀ cut ∈ cuts, ∃ listing, InOrder (Cut.Tells index atRules cut) listing ∧
      Reads listing (rules index atRules (ofCut depth cut))) :
    Listed index atRules cuts (cuts.map (ofCut depth)) := by
  obtain ⟨listings, listed⟩ : ∃ listings, List.Forall₂ (fun cut listing =>
      InOrder (Cut.Tells index atRules cut) listing ∧
        Reads listing (rules index atRules (ofCut depth cut))) cuts listings := by
    induction cuts with
    | nil => exact ⟨[], .nil⟩
    | cons cut more ih =>
      obtain ⟨listing, first⟩ := each cut List.mem_cons_self
      obtain ⟨listings, rest⟩ := ih fun cut mem => each cut (List.mem_cons_of_mem _ mem)
      exact ⟨listing :: listings, .cons first rest⟩
  refine ⟨listings.flatten, .parts (listed.imp fun _ _ both => both.1), ?_⟩
  clear each
  induction listed with
  | nil => rfl
  | cons first _ ih => exact first.2.append ih

theorem listed_values {level : Cut.Level} {values : List Value} (shallow : Value.depthOf values < depth) :
    Listed index atRules (Cut.all level .nothing values) (ofValues depth level values) := by
  induction depth generalizing level values atRules with
  | zero => exact absurd shallow (Nat.not_lt_zero _)
  | succ depth ih =>
    rw [ofValues_succ]
    refine listed_cuts fun cut mem => listed_cut fun names level content holds => ih ?_
    obtain ⟨p, block⟩ := Cut.all_content mem holds
    have deeper := Value.depthOf_lt_of_mem block
    omega

end Item

theorem depthOf_valuesOf_lt (source : Text) : Value.depthOf (valuesOf source) < source.length + 1 := by
  obtain ⟨pieces, text, scans⟩ := Scans.exists_whole (normalized source)
  rw [Scans.valuesOf_eq text scans]
  have bound := scans.depthOf_le .first
  rw [text] at bound
  exact Nat.lt_succ_of_le (Nat.le_trans bound (length_normalized_le source))

/-- The rules of a stylesheet are read in document order up to the first fault. This is so of any cuts,
however deep others are in them, and of the cuts of a source text. At-rules go by the lower-case names of
their keywords. -/
theorem rules_in_document_order :
    (∀ (index : LineIndex) (cuts : List Cut) (depth : Nat),
      (∀ cut ∈ cuts, ∀ content, cut.content? = some content → Value.depthOf content < depth) →
      ∃ listing, InOrder (Cut.TellsIn index [] cuts) listing ∧
        Reads listing (Item.rulesOf index [] (cuts.map (Item.ofCut depth)))) ∧
    (∀ source : Text, ∃ listing,
      InOrder (Cut.TellsIn (.ofSource source) [] (Cut.all .sheet .nothing (valuesOf source))) listing ∧
        Reads listing ((Sheet.read source).map Sheet.rules)) ∧
    ∀ level values keyword content, .atRule keyword content ∈ Cut.all level .nothing values →
      ∃ place name, .token place (.atKeyword name) ∈ values ∧ keyword = Text.lowered name := by
  refine ⟨?_, ?_, ?_⟩
  · intro index cuts depth shallow
    apply Item.listed_cuts
    intro cut mem
    apply Item.listed_cut
    intro names level content holds
    exact Item.listed_values (shallow cut mem content holds)
  · intro source
    have listed : Item.Listed (.ofSource source) [] (Cut.all .sheet .nothing (valuesOf source))
        (Sheet.items source) := Item.listed_values (depthOf_valuesOf_lt source)
    obtain ⟨listing, inOrder, reads⟩ := listed
    refine ⟨listing, inOrder, ?_⟩
    rw [Sheet.read]
    cases read : Item.rulesOf (.ofSource source) [] (Sheet.items source) with
    | error => rw [read] at reads; exact reads
    | ok rules => rw [read] at reads; exact reads
  · intro level values keyword content mem
    rcases Cut.keyword_of_mem_all mem with begins | among
    · cases begins
    · exact among

/-- A rule nested in another is told after it, both inside an at-rule. What holds no rules is not entered. -/
theorem rules_in_document_order_nested :
    let block := fun (name : CodePoint) content => [.token .first (.ident [name]), .block .first .curly content]
    let content := block 'a' (block 'b' [])
    let cuts := [Cut.atRule "page".codePoints (some content), .atRule "media".codePoints (some content)]
    (∀ cut ∈ cuts, ∀ inner, cut.content? = some inner → Value.depthOf inner < 3) ∧
      ∃ rules : List StyleRule, InOrder (Cut.TellsIn (.ofSource []) [] cuts) (rules.map .ok) ∧
        rules.map (fun rule => (rule.selector, rule.atRules)) =
          [([.char 'a'], ["media".codePoints]), ([.char 'b'], ["media".codePoints])] := by
  intro block content cuts
  have shallow : ∀ cut ∈ cuts, ∀ inner, cut.content? = some inner → Value.depthOf inner < 3 := by
    intro cut mem inner holds
    have deep : Value.depthOf content < 3 := by decide +kernel
    simp only [cuts, List.mem_cons, List.not_mem_nil, or_false] at mem
    rcases mem with rfl | rfl <;> cases holds <;> exact deep
  refine ⟨shallow, ?_⟩
  have told : (Item.rulesOf (.ofSource []) [] (cuts.map (Item.ofCut 3))).toOption.map
      (List.map fun rule => (rule.selector, rule.atRules)) =
      some [([.char 'a'], ["media".codePoints]), ([.char 'b'], ["media".codePoints])] := by decide +kernel
  obtain ⟨listing, inOrder, reads⟩ := rules_in_document_order.1 (.ofSource []) cuts 3 shallow
  cases read : Item.rulesOf (.ofSource []) [] (cuts.map (Item.ofCut 3)) with
  | error =>
    rw [read] at told
    cases told
  | ok rules =>
    rw [read] at reads told
    obtain rfl : listing = rules.map .ok := reads
    exact ⟨rules, inOrder, Option.some.inj told⟩

end ClassMigration.Stylesheet
