import ClassMigration.Script.Program

/-! The outline of a script: its named imports, its member accesses with the place of each, and its
string literals. Nothing else of a tree matters to a migration. -/
namespace ClassMigration.Script

/-- A name of a module and the name it goes by in the script. -/
structure ImportedName where
  imported : Text
  bound : Text
  deriving DecidableEq, Repr

structure Import where
  module : Text
  names : List ImportedName
  deriving DecidableEq, Repr

/-- Where an expression stands. -/
inductive Place where
  /-- Directly in a slot of a template that has these chunks as written. -/
  | slot (chunks : List Text) (index : Nat)
  /-- In another construct, given by the name of its kind. -/
  | inside (parent : Text)
  deriving DecidableEq, Repr

/-- A member access. The object is given if it is a name, the property if it is not computed. -/
structure Member where
  object : Option Text
  property : Option Text
  span : Span
  place : Place
  deriving DecidableEq, Repr

structure StringLiteral where
  value : Text
  /-- The literal as written, with its quotes. -/
  written : Text
  span : Span
  /-- The literal is the value of an element's attribute, where no escapes exist. -/
  inAttribute : Bool
  deriving DecidableEq, Repr

structure Outline where
  source : Text
  imports : List Import
  members : List Member
  strings : List StringLiteral
  deriving DecidableEq, Repr

/-- What a walk over a tree reports. -/
inductive Site where
  | member (member : Member)
  | string (literal : StringLiteral)
  deriving DecidableEq, Repr

namespace Site

def member? : Site → Option Member
  | member m => some m
  | string _ => none

def string? : Site → Option StringLiteral
  | member _ => none
  | string s => some s

end Site

namespace Place

/-- Members stand in a construct of their own. -/
def inMember : Place := inside "MemberExpression".codePoints

def isAttribute : Place → Bool
  | inside parent => parent == Kind.jsxAttribute.name
  | slot .. => false

end Place

namespace Node

/-- The site that a node is, standing at a place. -/
def site? (place : Place) : Node → Option Site
  | member object property computed span =>
    some (.member ⟨object.name?, if computed then none else property.name?, span, place⟩)
  | string value written span => some (.string ⟨value, written, span, place.isAttribute⟩)
  | _ => none

/-- The parts of a node in order, each with its place. A list leaves its items where it stands. -/
def parts (place : Place) : Node → List (Node × Place)
  | member object property _ _ => [(object, .inMember), (property, .inMember)]
  | template chunks slots =>
    slots.zipIdx.map fun (slot, index) => (slot, .slot (chunks.map Chunk.raw) index)
  | list items => items.map (·, place)
  | branch kind items => items.map (·, .inside kind.name)
  | _ => []

mutual

def size : Node → Nat
  | name _ => 1
  | string .. => 1
  | member object property _ _ => object.size + property.size + 1
  | template _ slots => sizes slots + 1
  | list items => sizes items + 1
  | branch _ items => sizes items + 1

def sizes : List Node → Nat
  | [] => 0
  | node :: more => node.size + sizes more

end

/-- The sites of the nodes that wait, each before those of its parts. Every turn takes one node. -/
def walk : Nat → List (Node × Place) → List Site
  | 0, _ => []
  | _ + 1, [] => []
  | fuel + 1, (node, place) :: waiting =>
    (node.site? place).toList ++ walk fuel (node.parts place ++ waiting)

/-- The sites of a tree at a place, outer before inner and in the order of the parts. -/
def sites (place : Place) (node : Node) : List Site := walk node.size [(node, place)]

def import? : Node → Option Import
  | branch .importDeclaration [list specifiers, string module _ _] =>
    some ⟨module, specifiers.filterMap fun
      | branch .importSpecifier [name bound, name imported] => some ⟨imported, bound⟩
      | _ => none⟩
  | _ => none

end Node

namespace Outline

def ofItems (source : Text) (items : List Node) : Outline :=
  let sites := (Node.branch .program [.list items]).sites (.inside Kind.program.name)
  { source
    imports := items.filterMap Node.import?
    members := sites.filterMap Site.member?
    strings := sites.filterMap Site.string? }

def read (source : Text) : Except Fault Outline :=
  (Program.parse source).map (ofItems source)

end Outline

end ClassMigration.Script
