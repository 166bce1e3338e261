import ClassMigration.Proofs.Script.Preorder

/-! The members of a script with the scopes around them. An outline keeps no scopes: what it keeps of the
members is what is left when the scopes are forgotten. -/
namespace ClassMigration.Script

/-- A scope is known by the names that it declares. -/
abbrev Scope := List Text

/-- A member and the scopes around it, the innermost first. The scope of the whole script is none of them. -/
structure ScopedMember where
  member : Member
  scopes : List Scope
  deriving DecidableEq, Repr

/-- A scope around the member declares the name. -/
def ScopedMember.Declares (site : ScopedMember) (name : Text) : Prop :=
  ∃ scope ∈ site.scopes, name ∈ scope

instance (site : ScopedMember) (name : Text) : Decidable (site.Declares name) :=
  inferInstanceAs (Decidable (∃ scope ∈ site.scopes, name ∈ scope))

/-- Functions of every form; methods hold one of them. -/
def Kind.isFunction : Kind → Bool
  | functionDeclaration | functionExpression | arrowFunction => true
  | _ => false

namespace Node

mutual

def patternNames : Node → List Text
  | name id => [id]
  | branch .assignmentPattern (target :: _) => patternNames target
  | branch .restElement [target] => patternNames target
  | branch .arrayPattern [list elements] => patternsNames elements
  | branch .objectPattern [list properties] => patternsNames properties
  | branch .property [_, value] => patternNames value
  | _ => []

def patternsNames : List Node → List Text
  | [] => []
  | node :: more => patternNames node ++ patternsNames more

end

def declaratorNames : Node → List Text
  | branch .variableDeclarator (pattern :: _) => pattern.patternNames
  | _ => []

/-- The names that a statement declares where it stands. -/
def declaredNames : Node → List Text
  | branch .variableDeclaration [list declarators] => declarators.flatMap declaratorNames
  | branch .functionDeclaration (name id :: _) => [id]
  | branch .classDeclaration (name id :: _) => [id]
  | branch .exportNamed (item :: _) => declaredNames item
  | branch .exportDefault [item] => declaredNames item
  | _ => []

mutual

/-- The variables declared in a tree outside the functions in it. The function around knows those of `var`
everywhere; a tree does not keep the word of a declaration, so those of `let` and `const` are with them. -/
def variableNames : Node → List Text
  | list items => variableNamesOf items
  | branch kind parts =>
    if kind.isFunction then []
    else if kind = .variableDeclaration then declaredNames (branch kind parts)
    else variableNamesOf parts
  | _ => []

def variableNamesOf : List Node → List Text
  | [] => []
  | node :: more => variableNames node ++ variableNamesOf more

end

/-- The names of a function's scope, from its parameters and its body. -/
def functionNames (parts : List Node) : Scope :=
  parts.flatMap fun
    | list parameters => patternsNames parameters
    | part => part.variableNames

/-- The names that the cases of a switch declare, which share one scope. -/
def caseNames : Node → List Text
  | branch .switchCase parts =>
    parts.flatMap fun
      | list items => items.flatMap declaredNames
      | _ => []
  | _ => []

/-- The scopes that a construct opens around its parts, one at most. A function or a class that is an
expression has its own name in it; a tree does not tell the name of a class from that of the class that it
extends. -/
def opened : Node → List Scope
  | branch .functionDeclaration parts => [functionNames parts]
  | branch .functionExpression (name id :: parts) => [id :: functionNames parts]
  | branch .functionExpression parts => [functionNames parts]
  | branch .classExpression (name id :: _) => [[id]]
  | branch .arrowFunction parts => [functionNames parts]
  | branch .block [list items] => [items.flatMap declaredNames]
  | branch .catchClause (parameter :: _) => [parameter.patternNames]
  | branch .forLoop (first :: _) => [first.declaredNames]
  | branch .forIn (left :: _) => [left.declaredNames]
  | branch .forOf (left :: _) => [left.declaredNames]
  | branch .switchStatement [_, list cases] => [cases.flatMap caseNames]
  | _ => []

mutual

/-- The members of a tree at a place inside scopes, outer before inner. -/
def scopedMembers (place : Place) (scopes : List Scope) : Node → List ScopedMember
  | member object property computed span =>
    ⟨⟨object.name?, if computed then none else property.name?, span, place⟩, scopes⟩ ::
      (scopedMembers .inMember scopes object ++ scopedMembers .inMember scopes property)
  | template chunks slots => slotMembers scopes (chunks.map Chunk.raw) 0 slots
  | list items => scopedMembersOf place scopes items
  | branch kind parts =>
    scopedMembersOf (.inside kind.name) (opened (branch kind parts) ++ scopes) parts
  | _ => []

def slotMembers (scopes : List Scope) (chunks : List Text) (index : Nat) :
    List Node → List ScopedMember
  | [] => []
  | slot :: more =>
    scopedMembers (.slot chunks index) scopes slot ++ slotMembers scopes chunks (index + 1) more

def scopedMembersOf (place : Place) (scopes : List Scope) : List Node → List ScopedMember
  | [] => []
  | node :: more => scopedMembers place scopes node ++ scopedMembersOf place scopes more

end

theorem scopedMembersOf_eq_flatMap (place : Place) (scopes : List Scope) (items : List Node) :
    scopedMembersOf place scopes items = items.flatMap (scopedMembers place scopes) := by
  induction items with
  | nil => rfl
  | cons node more ih => rw [scopedMembersOf, List.flatMap_cons, ih]

theorem slotMembers_eq_flatMap (scopes : List Scope) (chunks : List Text) (index : Nat)
    (slots : List Node) :
    slotMembers scopes chunks index slots =
      (slots.zipIdx index).flatMap fun (slot, i) => scopedMembers (.slot chunks i) scopes slot := by
  induction slots generalizing index with
  | nil => rfl
  | cons slot more ih => rw [slotMembers, List.zipIdx_cons, List.flatMap_cons, ih]

/-- The parts of a node as they wait, each with its place and the scopes around it. -/
def scopedParts (place : Place) (scopes : List Scope) (node : Node) : List (Node × Place × List Scope) :=
  (node.parts place).map fun part => (part.1, part.2, node.opened ++ scopes)

/-- A node's own member, and then the members of its parts inside the scope that it opens. -/
theorem scopedMembers_eq (place : Place) (scopes : List Scope) (node : Node) :
    node.scopedMembers place scopes =
      ((node.site? place).toList.filterMap Site.member?).map (⟨·, scopes⟩) ++
        (node.scopedParts place scopes).flatMap fun part => part.1.scopedMembers part.2.1 part.2.2 := by
  cases node with
  | name => rfl
  | string => rfl
  | member object property computed span =>
    simp [scopedMembers, site?, Site.member?, scopedParts, parts, opened]
  | template chunks slots =>
    simp [scopedMembers, site?, scopedParts, parts, opened, slotMembers_eq_flatMap, List.flatMap_map]
  | list items =>
    simp [scopedMembers, site?, scopedParts, parts, opened, scopedMembersOf_eq_flatMap, List.flatMap_map]
  | branch kind items =>
    simp [scopedMembers, site?, scopedParts, parts, scopedMembersOf_eq_flatMap, List.flatMap_map]

/-- Without their scopes the members are those that a walk reports. -/
theorem map_member_scopedMembers (place : Place) (scopes : List Scope) (node : Node) :
    (node.scopedMembers place scopes).map ScopedMember.member =
      (node.preorder place).filterMap fun part => (part.1.site? part.2).bind Site.member? := by
  induction node, place using parts_induction generalizing scopes with
  | step node place ih =>
    have inParts : ((node.scopedParts place scopes).flatMap fun part =>
        (part.1.scopedMembers part.2.1 part.2.2).map ScopedMember.member) =
        (node.parts place).flatMap fun part =>
          (part.1.preorder part.2).filterMap fun part => (part.1.site? part.2).bind Site.member? := by
      rw [scopedParts, List.flatMap_map]
      exact congrArg List.flatten (List.map_congr_left fun part mem => ih part mem _)
    rw [scopedMembers_eq, preorder_eq, preorders, List.map_append, List.map_flatMap, List.filterMap_cons,
      List.filterMap_flatMap, inParts, List.map_map]
    cases node.site? place with
    | none => rfl
    | some site => cases site <;> rfl

end Node

def scopedMembers (items : List Node) : List ScopedMember :=
  (Node.branch .program [.list items]).scopedMembers (.inside Kind.program.name) []

theorem Outline.members_ofItems (source : Text) (items : List Node) :
    (Outline.ofItems source items).members = (scopedMembers items).map ScopedMember.member := by
  rw [scopedMembers, Node.map_member_scopedMembers, ← List.filterMap_filterMap, ← Node.sites_eq]
  rfl

end ClassMigration.Script
