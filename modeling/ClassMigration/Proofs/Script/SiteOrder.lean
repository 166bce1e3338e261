import ClassMigration.Proofs.DocumentOrder
import ClassMigration.Proofs.Script.Preorder
import Mathlib.Logic.Function.Iterate

/-! The order in which a walk comes to the nodes of a script. A walk that keeps what waits on a stack lists
them as a recursive traversal does, and each with the place where it stands. -/
namespace ClassMigration.Script

/-- What holds a node directly: a node that is not a list, and the number of its part. -/
abbrev Holder := Option (Node × Nat)

namespace Node

/-- What holds the part of a node with a number. The items of a list are held by what holds the list. -/
def holding (holder : Holder) (node : Node) (i : Nat) : Holder :=
  match node with
  | list _ => holder
  | node => some (node, i)

/-- A node stands at an address in another, held by what is nearest around it. -/
inductive HeldAt : Holder → Node → Address → Holder → Node → Prop
  | self {holder : Holder} {node : Node} : HeldAt holder node [] holder node
  | inPart {holder nearest : Holder} {node part inner : Node} {i : Nat} {address : Address}
      (isPart : node.fields[i]? = some part)
      (stands : HeldAt (node.holding holder i) part address nearest inner) :
      HeldAt holder node (i :: address) nearest inner

end Node

/-- The place of what is held by a node, in a tree that stands at a place itself. -/
def Holder.place (outside : Place) : Holder → Place
  | some (.template chunks _, i) => .slot (chunks.map Chunk.raw) i
  | some (.member .., _) => .inMember
  | some (.branch kind _, _) => .inside kind.name
  | _ => outside

namespace Node

/-- One turn of a walk: the node at the end of the stack is taken, and its parts are put there in reverse. -/
def turn (stack : List (Node × Place)) : List (Node × Place) :=
  match stack.getLast? with
  | none => []
  | some (node, place) => stack.dropLast ++ (node.parts place).reverse

theorem preorders_turn (stack : List (Node × Place)) :
    preorders (turn stack).reverse = (preorders stack.reverse).tail := by
  rcases List.eq_nil_or_concat stack with rfl | ⟨below, ⟨node, place⟩, rfl⟩
  · rfl
  · simp [turn, preorders_cons]

theorem head?_preorders (stack : List (Node × Place)) : (preorders stack.reverse).head? = stack.getLast? := by
  rcases List.eq_nil_or_concat stack with rfl | ⟨below, ⟨node, place⟩, rfl⟩
  · rfl
  · simp [preorders_cons]

/-- Turn after turn the end of the stack holds the next node of the traversal, until nothing is left. -/
theorem getLast?_turns (turns : Nat) (stack : List (Node × Place)) :
    (turn^[turns] stack).getLast? = (preorders stack.reverse)[turns]? := by
  induction turns generalizing stack with
  | zero => rw [Function.iterate_zero_apply, ← head?_preorders, List.head?_eq_getElem?]
  | succ turns ih => rw [Function.iterate_succ_apply, ih, preorders_turn, List.getElem?_tail]

theorem parts_eq_fields (outside : Place) (holder : Holder) (node : Node) :
    node.parts (holder.place outside) =
      node.fields.zipIdx.map fun part => (part.1, (node.holding holder part.2).place outside) := by
  have each : ∀ (items : List Node) (place : Place),
      items.map (·, place) = items.zipIdx.map fun part => (part.1, place) := by
    intro items place
    conv_lhs => rw [← List.zipIdx_map_fst 0 items, List.map_map]
    rfl
  cases node with
  | name => rfl
  | string => rfl
  | member => rfl
  | template => rfl
  | list items => exact each items _
  | branch kind items => exact each items _

/-- The nodes of a tree come in document order, each with the place that it is held at. -/
theorem preorder_inOrder (outside : Place) (holder : Holder) (node : Node) :
    InOrder (fun address site => ∃ nearest, HeldAt holder node address nearest site.1 ∧
      site.2 = nearest.place outside) (node.preorder (holder.place outside)) := by
  induction node using fields_induction generalizing holder with
  | step node ih =>
    have inParts : InOrder _ (node.fields.zipIdx.map fun part =>
        part.1.preorder ((node.holding holder part.2).place outside)).flatten :=
      InOrder.parts (List.forall₂_map_right_iff.mpr (List.forall₂_same.mpr fun part mem =>
        ih part.1 (List.fst_mem_of_mem_zipIdx mem) (node.holding holder part.2)))
    rw [preorder_eq, preorders, parts_eq_fields, List.flatMap_map]
    apply (inParts.node (some (node, holder.place outside)) ?_).congr
    · rintro address ⟨inner, place⟩
      constructor
      · rintro (⟨rfl, own⟩ | ⟨i, rest, ⟨part, j⟩, rfl, found, nearest, stands, same⟩)
        · cases own
          exact ⟨holder, .self, rfl⟩
        · obtain ⟨part, isPart, numbered⟩ := Option.map_eq_some_iff.mp (List.getElem?_zipIdx ▸ found)
          cases numbered
          rw [Nat.zero_add] at stands
          exact ⟨nearest, .inPart isPart stands, same⟩
      · rintro ⟨nearest, stands, same⟩
        cases stands with
        | self => exact .inl ⟨rfl, congrArg (fun place => some (inner, place)) same.symm⟩
        | @inPart _ _ _ part _ i rest isPart stands =>
          refine .inr ⟨i, rest, (part, i), rfl, ?_, nearest, stands, same⟩
          rw [List.getElem?_zipIdx, isPart, Option.map_some, Nat.zero_add]
    · rintro site ⟨i, rest, part, empty, -⟩
      cases empty

/-- What holds a node has parts and is no list. -/
theorem HeldAt.nearest {holder nearest : Holder} {node inner : Node} {address : Address}
    (stands : HeldAt holder node address nearest inner) : nearest = holder ∨
      ∃ around i part, nearest = some (around, i) ∧ around.fields[i]? = some part ∧
        ∀ items, around ≠ list items := by
  induction stands with
  | self => exact .inl rfl
  | @inPart holder nearest node part inner i address isPart stands ih =>
    rcases ih with rfl | found
    · cases node with
      | list items => exact .inl rfl
      | _ => exact .inr ⟨_, i, part, rfl, isPart, fun items => nofun⟩
    · exact .inr found

end Node

/-- No other kind goes by the name of an attribute. -/
theorem Kind.eq_jsxAttribute {kind : Kind} : kind.name = jsxAttribute.name → kind = .jsxAttribute := by
  cases kind with
  | arrowParameters asynchronous => cases asynchronous <;> decide
  | _ => decide

namespace Node

/-- What an attribute holds directly stands at the place of its value, and nothing else does. -/
theorem isAttribute_place (outside : Place) {around part : Node} {i : Nat}
    (isPart : around.fields[i]? = some part) (noList : ∀ items, around ≠ list items) :
    (Holder.place outside (some (around, i))).isAttribute = around.isKind .jsxAttribute := by
  cases around with
  | name => cases isPart
  | string => cases isPart
  | member =>
    have other : Place.inMember.isAttribute = false := by decide
    exact other
  | template => rfl
  | list items => exact absurd rfl (noList items)
  | branch kind parts =>
    by_cases same : kind = .jsxAttribute
    · subst same
      rfl
    · have other : kind.name ≠ Kind.jsxAttribute.name := fun named => same (Kind.eq_jsxAttribute named)
      simp [Holder.place, Place.isAttribute, isKind, kind?, same, other]

/-- A node of a tree at a place is a site. -/
def HasSite (place : Place) (node : Node) (address : Address) (site : Site) : Prop :=
  ∃ nearest inner, HeldAt none node address nearest inner ∧ inner.site? (nearest.place place) = some site

theorem sites_inOrder (place : Place) (node : Node) : InOrder (node.HasSite place) (node.sites place) := by
  rw [sites_eq]
  apply ((node.preorder_inOrder place none).filterMap _).congr
  intro address site
  constructor
  · rintro ⟨⟨inner, _⟩, ⟨nearest, stands, rfl⟩, isSite⟩
    exact ⟨nearest, inner, stands, isSite⟩
  · rintro ⟨nearest, inner, stands, isSite⟩
    exact ⟨(inner, nearest.place place), ⟨nearest, stands, rfl⟩, isSite⟩

end Node

/-- A walk over a tree comes to each of its nodes once, in document order, and to no more. Turn after turn its
stack ends in the next node of the recursive traversal. What stands directly in a slot of a template is placed
there, and all else in the nearest node around it that is no list. That is so of the members and strings of an
outline. -/
theorem sites_in_document_order :
    (∀ (node : Node) (place : Place),
      (∀ turns, (Node.turn^[turns] [(node, place)]).getLast? = (node.preorder place)[turns]?) ∧
      (∀ turns, Node.turn^[turns] [(node, place)] = [] ↔ node.size ≤ turns) ∧
      (∀ fuel, node.size ≤ fuel → Node.walk fuel [(node, place)] =
        (node.preorder place).filterMap fun part => part.1.site? part.2) ∧
      InOrder (fun address site => ∃ nearest, Node.HeldAt none node address nearest site.1 ∧
        site.2 = nearest.place place) (node.preorder place) ∧
      ∀ address around i inner, Node.HeldAt none node address (some (around, i)) inner →
        (Holder.place place (some (around, i))).isAttribute = around.isKind .jsxAttribute) ∧
    ∀ (source : Text) (items : List Node),
      let script := (Node.branch .program [.list items]).HasSite (.inside Kind.program.name)
      InOrder (fun address member => script address (.member member)) (Outline.ofItems source items).members ∧
      InOrder (fun address literal => script address (.string literal))
        (Outline.ofItems source items).strings := by
  have turns : ∀ (node : Node) (place : Place) (turns : Nat),
      (Node.turn^[turns] [(node, place)]).getLast? = (node.preorder place)[turns]? := by
    intro node place turns
    rw [Node.getLast?_turns, List.reverse_singleton, Node.preorders_singleton]
  refine ⟨fun node place => ⟨turns node place, ?_, ?_, node.preorder_inOrder place none, ?_⟩, ?_⟩
  · intro k
    rw [← List.getLast?_eq_none_iff, turns, List.getElem?_eq_none_iff, Node.length_preorder]
  · intro fuel enough
    rw [Node.walk_eq_preorders fuel [(node, place)] enough, Node.preorders_singleton]
  · intro address around i inner stands
    rcases stands.nearest with empty | ⟨_, _, part, same, isPart, noList⟩
    · cases empty
    · cases same
      exact Node.isAttribute_place place isPart noList
  · intro source items script
    have sites := (Node.branch .program [.list items]).sites_inOrder (.inside Kind.program.name)
    constructor
    · apply (sites.filterMap Site.member?).congr
      intro address member
      constructor
      · rintro ⟨site, found, picked⟩
        cases site <;> cases picked
        exact found
      · exact fun found => ⟨.member member, found, rfl⟩
    · apply (sites.filterMap Site.string?).congr
      intro address literal
      constructor
      · rintro ⟨site, found, picked⟩
        cases site <;> cases picked
        exact found
      · exact fun found => ⟨.string literal, found, rfl⟩

/-- The value of an attribute in the second slot of a template comes last of six nodes, in the attribute. -/
theorem sites_in_document_order_attribute :
    let value := Node.string "a".codePoints "'a'".codePoints ⟨20, 23⟩
    let holder := Node.branch .jsxAttribute [.name "title".codePoints, value]
    let node := Node.template [] [.name "x".codePoints, .list [holder]]
    node.size ≤ 6 ∧
      Node.walk 6 [(node, .slot [] 1)] = [.string ⟨"a".codePoints, "'a'".codePoints, ⟨20, 23⟩, true⟩] ∧
      Node.HeldAt none node [1, 0, 1] (some (holder, 1)) value ∧
      (Holder.place (.slot [] 1) (some (holder, 1))).isAttribute = true := by
  intro value holder node
  obtain ⟨-, -, walks, -, flagged⟩ := sites_in_document_order.1 node (.slot [] 1)
  have stands : Node.HeldAt none node [1, 0, 1] (some (holder, 1)) value :=
    .inPart rfl (.inPart rfl (.inPart rfl .self))
  refine ⟨by decide, ?_, stands, ?_⟩
  · rw [walks 6 (by decide)]
    decide
  · rw [flagged [1, 0, 1] holder 1 value stands]
    rfl

end ClassMigration.Script
