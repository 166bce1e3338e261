import ClassMigration.Proofs.Script.Elements

/-! Expressions give trees that stand in the script and fit into a slot. -/
namespace ClassMigration.Script

open Std.Do
open Parse
open Made (Stands)

set_option mvcgen.warning false

namespace Made

variable {source : Text}

theorem stands_patterns : (∀ node : Node, Stands source node → Stands source node.asPattern) ∧
    (∀ nodes : List Node, Stands source nodes → Stands source (Node.asProperties nodes)) ∧
    (∀ nodes : List Node, Stands source nodes → Stands source (Node.asPatterns nodes)) := by
  refine Node.asPattern.mutual_induct (fun node => Stands source node → Stands source node.asPattern)
    (fun nodes => Stands source nodes → Stands source (Node.asProperties nodes))
    (fun nodes => Stands source nodes → Stands source (Node.asPatterns nodes)) ?_ ?_ ?_ ?_ ?_ ?_ ?_ ?_ ?_ ?_
  case refine_5 =>
    intro node spread array object assignment stands
    rwa [Node.asPattern] <;> assumption
  case refine_8 =>
    intro node more property one rest stands
    rw [Node.asProperties, stands_cons] <;> first | assumption | skip
    rw [stands_cons] at stands
    exact ⟨one stands.1, rest stands.2⟩
  all_goals
    intros
    simp_all [Node.asPattern, Node.asProperties, Node.asPatterns]

@[simp] theorem stands_asPattern {node : Node} (stands : Stands source node) : Stands source node.asPattern :=
  stands_patterns.1 node stands

theorem stands_mapPattern {nodes : List Node} (stands : Stands source nodes) :
    Stands source (nodes.map Node.asPattern) := by
  intro pattern mem
  obtain ⟨node, isIn, rfl⟩ := List.mem_map.mp mem
  exact stands_asPattern (stands node isIn)

end Made

variable {α : Type} {g : Grammar} [Fair g] {r : Region}

namespace Expression

@[simp] theorem stands_parametersOf {source : Text} {nodes : List Node} (stands : Stands source nodes) :
    Stands source (parametersOf nodes) := by
  simp [parametersOf, Made.stands_mapPattern stands]

@[simp] theorem fits_parametersOf {source : Text} {start stop : Nat} {nodes : List Node} :
    (parametersOf nodes).Fits source start stop := trivial

@[spec] theorem arrowAhead_spec : ⦃ready r⦄ arrowAhead ⦃kept r⦄ := by
  mvcgen [arrowAhead] with simp_all

/-- The node stands in the script and fits into a slot that begins with the region. -/
def Suits (r : Region) (node : Node) (s : State) : Prop :=
  Stands r.source node ∧ node.Fits r.source r.start s.start.index

/-- What has been read after an operand. Where that is nothing, the operand fits into the slot. -/
def Follows [Made α] (r : Region) (first : Node) (more : List α) (s : State) : Prop :=
  Stands r.source more ∧ (more = [] → first.Fits r.source r.start s.start.index)

@[spec] theorem moreParenthesized_spec (first : Node) (stands : Stands r.source first) :
    ⦃fun s => ⌜r.Ready s ∧ first.Fits r.source r.start s.start.index⌝⦄ moreParenthesized g first
    ⦃⇓? made s => ⌜r.Ready s ∧ Sum.elim (Follows r first · s) (Suits r · s) made⌝⦄ := by
  refine triple_iff.mpr fun s holds => ?_
  refine triple_iff.mp (loop_spec (P := fun more s => r.Ready s ∧ Follows r first more s) fun more => ?_)
    s ⟨holds.1, Made.stands_nil, fun _ => holds.2⟩
  mvcgen [inherited] with simp_all [Follows, Suits]

@[spec] theorem closeParenthesis_spec (first : Node) (more : List Node) :
    ⦃fun s => ⌜r.Ready s ∧ Stands r.source first ∧ Follows r first more s⌝⦄
    closeParenthesis first more ⦃yields r⦄ := by
  rcases more with _ | ⟨node, more⟩
  · have closes := @closing_spec r first
    mvcgen [closeParenthesis, -expect_spec, closes] with simp_all [Follows]
  · mvcgen [closeParenthesis] with simp_all [Follows]

@[spec] theorem parenthesized_spec : ⦃ready r⦄ parenthesized g ⦃yields r⦄ := by
  mvcgen [parenthesized, inherited] with simp_all [Suits]

@[spec] theorem plainLiteral_spec : ⦃ready r⦄ plainLiteral ⦃yields r⦄ := by
  mvcgen [plainLiteral, plain] with simp_all
  case vc7.isFalse.post.success.h_1 => exact Region.Ready.written ‹_› ‹_›

@[spec] theorem primary_spec : ⦃ready r⦄ primary g ⦃yields r⦄ := by
  mvcgen [primary, inherited, plain] with simp_all

@[spec] theorem word_spec :
    ⦃ready r⦄ word ⦃⇓? node s => ⌜r.Ready s ∧ r.Passed s ∧ Stands r.source node⌝⦄ := by
  mvcgen [word] with simp_all

@[spec] theorem argumentsOf_spec {one : Parse Node} (reads : ⦃ready r⦄ one ⦃yields r⦄) :
    ⦃ready r⦄ argumentsOf g one ⦃made r⦄ := by
  mvcgen [argumentsOf, isolated, reads] with simp_all

@[spec] theorem arguments_spec : ⦃ready r⦄ arguments g ⦃made r⦄ := by
  mvcgen [arguments]

@[spec] theorem asyncArguments_spec : ⦃ready r⦄ asyncArguments g ⦃made r⦄ := by
  mvcgen [asyncArguments]

@[spec] theorem newExpression_spec : ⦃ready r⦄ newExpression g ⦃yields r⦄ := by
  mvcgen [newExpression, isolated, plain] with simp_all

@[spec] theorem head_spec : ⦃ready r⦄ head g ⦃yields r⦄ := by
  mvcgen [head, inherited]

@[spec] theorem access?_spec (start : Nat) (node : Node) (begins : start = r.start) :
    ⦃fun s => ⌜r.Ready s ∧ Suits r node s⌝⦄ access? g start node
    ⦃⇓? made s => ⌜r.Ready s ∧ Suits r (made.getD node) s⌝⦄ := by
  subst begins
  mvcgen [access?, opensTemplate, target, isolated] with simp_all [Suits]
  case vc5.isTrue.post.success.post.success =>
    rename_i word
    exact ⟨word.2.1.onward, word.2.1.member⟩
  case vc15.isFalse.isTrue.post.success.post.success.h_2.post.success =>
    rename_i closed
    exact ⟨closed.2.onward, closed.2.member⟩

@[spec] theorem superReference_spec (followers : List String) : ⦃ready r⦄ superReference followers ⦃yields r⦄ := by
  mvcgen [superReference] with simp_all

@[spec] theorem seesSuper_spec : ⦃ready r⦄ seesSuper ⦃kept r⦄ := by
  mvcgen [seesSuper]

theorem loop_yields {start : Node} {step : Node → Parse (Node ⊕ Node)}
    (keeps : ∀ a, ⦃fun s => ⌜r.Ready s ∧ Suits r a s⌝⦄ step a
      ⦃⇓? made s => ⌜r.Ready s ∧ Sum.elim (Suits r · s) (Suits r · s) made⌝⦄) :
    ⦃fun s => ⌜r.Ready s ∧ Suits r start s⌝⦄ loop start step ⦃yields r⦄ := by
  have turned := @loop_spec Node Node start step (fun a s => r.Ready s ∧ Suits r a s)
    (fun b s => r.Ready s ∧ Suits r b s) fun a => triple_iff.mpr fun s holds made s' run => by
      have kept := triple_iff.mp (keeps a) s holds made s' run
      cases made <;> exact kept
  exact turned

@[spec] theorem operand_spec : ⦃ready r⦄ operand g ⦃yields r⦄ := by
  refine yields_of_begins (fun r => ?_) r
  mvcgen [operand, plain, -loop_made, loop_yields] with simp_all [Suits, Made.stands_mapPattern]

@[spec] theorem callee_spec : ⦃ready r⦄ callee g ⦃yields r⦄ := by
  refine yields_of_begins (fun r => ?_) r
  mvcgen [callee, -loop_made, loop_yields] with simp_all [Suits]

@[spec] theorem update_spec : ⦃ready r⦄ update g ⦃yields r⦄ := by
  mvcgen [update, inherited, plain, checkOperand] with simp_all

@[spec] theorem unary_spec : ⦃ready r⦄ unary g ⦃yields r⦄ := by
  mvcgen [unary, inherited, plain] with simp_all

@[spec] theorem power_spec : ⦃ready r⦄ power g ⦃yields r⦄ := by
  mvcgen [power, inherited, isolated, plain] with simp_all

section Operators

variable {source : Text} {stack : List (Node × Operator)} {more : List (Operator × Node)} {top : Node}

theorem reduced_stands {level : Nat} (first : Stands source top) (others : Stands source stack) :
    Stands source (reduced level top stack) := by
  fun_induction reduced level top stack with
  | case1 right => exact ⟨first, others⟩
  | case2 right left operator stack binds ih =>
    rw [Made.stands_cons, Made.stands_pair] at others
    refine ih ?_ others.2
    simp [joined, first, others.1.1]
  | case3 right left operator stack binds => exact ⟨first, others⟩

theorem climbed_stands (first : Stands source top) (others : Stands source stack) (rest : Stands source more) :
    Stands source (climbed stack top more) := by
  fun_induction climbed stack top more with
  | case1 stack top => exact (reduced_stands first others).1
  | case2 stack top operator right more left stack' same ih =>
    have made : Stands source (reduced operator.1 top stack) := reduced_stands first others
    rw [same] at made
    rw [Made.stands_cons] at rest
    refine ih rest.1.2 ?_ rest.2
    rw [Made.stands_cons]
    exact ⟨⟨made.1, trivial, trivial⟩, made.2⟩

theorem reduced_branch {level : Nat} (joined : ∃ kind parts, top = .branch kind parts) :
    ∃ kind parts, (reduced level top stack).1 = .branch kind parts := by
  fun_induction reduced level top stack with
  | case1 right => exact joined
  | case2 right left operator stack binds ih => exact ih ⟨_, _, rfl⟩
  | case3 right left operator stack binds => exact joined

theorem climbed_branch (some : stack ≠ [] ∨ more ≠ []) :
    ∃ kind parts, climbed stack top more = .branch kind parts := by
  fun_induction climbed stack top more with
  | case1 stack top =>
    cases stack with
    | nil => simp at some
    | cons item stack =>
      rw [reduced, if_pos (Nat.zero_le _)]
      exact reduced_branch ⟨_, _, rfl⟩
  | case2 stack top operator right more left stack' same ih => exact ih (.inl (List.cons_ne_nil _ _))

theorem climbed_suits {s : State} (stands : Stands r.source top) (follows : Follows r top more s) :
    Suits r (climbed [] top more) s := by
  refine ⟨climbed_stands stands Made.stands_nil follows.1, ?_⟩
  cases more with
  | nil => exact follows.2 rfl
  | cons item more =>
    obtain ⟨kind, parts, same⟩ := @climbed_branch [] (item :: more) top (.inr (List.cons_ne_nil _ _))
    rw [same]
    exact Node.fits_branch

end Operators

@[spec] theorem binary_spec : ⦃ready r⦄ binary g ⦃yields r⦄ := by
  have turned (first : Node) (step : List (Operator × Node) → Parse (_ ⊕ List (Operator × Node))) :=
    @loop_spec _ _ [] step (fun more s => r.Ready s ∧ Follows r first more s)
      (fun more s => r.Ready s ∧ Follows r first more s)
  mvcgen [binary, inherited, isolated, plain, -loop_made, turned]
  case vc16.post.success.post.success _ _ first _ read _ more _ follows =>
    exact ⟨follows.1, climbed_suits read.2.1 follows.2⟩
  all_goals simp_all [Follows]

@[spec] theorem conditional_spec : ⦃ready r⦄ conditional g ⦃yields r⦄ := by
  mvcgen [conditional, inherited, isolated, plain] with simp_all

@[spec] theorem yieldExpression_spec : ⦃ready r⦄ yieldExpression g ⦃yields r⦄ := by
  mvcgen [yieldExpression, Function.withYield] with simp_all

theorem stands_mapWithoutYield {source : Text} {nodes : List Node} (stands : Stands source nodes) :
    Stands source (nodes.map withoutYield) := by
  intro made mem
  obtain ⟨node, isIn, rfl⟩ := List.mem_map.mp mem
  have one := stands node isIn
  unfold withoutYield
  split
  · simp_all
  · exact one

theorem stands_arrowParameters {source : Text} {node : Node} {nodes : List Node} {asynchronous : Bool}
    (same : arrowParameters? node = some (nodes, asynchronous)) (stands : Stands source node) :
    Stands source nodes := by
  unfold arrowParameters? at same
  split at same
  · cases same
    simp
  · cases same
    simpa using stands
  · cases same

theorem nodes_addAll {p : Parameters} {nodes : List Node} :
    (nodes.foldl (fun p node => ((boundNames node).foldl (fun p name => p.bind name 0) p).add node) p).nodes =
      p.nodes ++ nodes := by
  induction nodes generalizing p with
  | nil => simp
  | cons node nodes ih =>
    rw [List.foldl_cons, ih, Parameters.nodes_add, Parameters.nodes_bindAll, List.append_assoc]
    rfl

@[spec] theorem checkedParameters_spec (nodes : List Node) (asynchronous : Bool) (stands : Stands r.source nodes) :
    ⦃ready r⦄ checkedParameters nodes asynchronous ⦃made r⦄ := by
  mvcgen [checkedParameters] invariants
  · ⇓? _ s => ⌜r.Ready s⌝
  all_goals simp_all +zetaDelta [nodes_addAll, stands_mapWithoutYield]

@[spec] theorem arrowFunction_spec (nodes : List Node) (asynchronous : Bool) (stands : Stands r.source nodes) :
    ⦃ready r⦄ arrowFunction g nodes asynchronous ⦃yields r⦄ := by
  mvcgen [arrowFunction, Function.within, isolated] with simp_all

@[spec] theorem assignmentTo_spec (first : Token) (node : Node) (stands : Stands r.source node) :
    ⦃ready r⦄ assignmentTo g first node ⦃yields r⦄ := by
  mvcgen [assignmentTo, isolated, plain] with simp_all

@[spec] theorem assignment_spec : ⦃ready r⦄ assignment g ⦃yields r⦄ := by
  mvcgen [assignment, plain] with simp_all
  all_goals refine stands_arrowParameters ‹_› ?_
  all_goals simp_all

end Expression

end ClassMigration.Script
