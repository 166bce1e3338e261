import ClassMigration.Migration
import ClassMigration.Script.Outline

/-! Symbols: which names of a script stand for the classes object of a migration. -/
namespace ClassMigration

structure ImportBinding where
  module : Text
  imported : Text
  bound : Text
  deriving DecidableEq, Repr

/-- Bound names in the order in which they were first bound, each with the flag of its last binding:
whether it stands for the tracked classes object. -/
structure Symbols where
  entries : List (Text × Bool)
  deriving DecidableEq, Repr

namespace Symbols

def none : Symbols := ⟨[]⟩

/-- Replaces the flag of a name in its place, or appends the name. -/
def put (name : Text) (tracked : Bool) : List (Text × Bool) → List (Text × Bool)
  | [] => [(name, tracked)]
  | (other, flag) :: more =>
    if other = name then (name, tracked) :: more else (other, flag) :: put name tracked more

def bind (symbols : Symbols) (name : Text) (tracked : Bool) : Symbols :=
  ⟨put name tracked symbols.entries⟩

/-- The flag of a name; an unbound one is not tracked. -/
def isTracked (symbols : Symbols) (name : Text) : Bool :=
  ((symbols.entries.find? (·.1 == name)).map Prod.snd).getD false

def trackedNames (symbols : Symbols) : List Text :=
  (symbols.entries.filter Prod.snd).map Prod.fst

def hasTracked (symbols : Symbols) : Bool := symbols.entries.any Prod.snd

theorem hasTracked_iff (symbols : Symbols) :
    symbols.hasTracked = true ↔ symbols.trackedNames ≠ [] := by
  simp [hasTracked, trackedNames]

end Symbols

namespace Script.Outline

def bindings (outline : Outline) : List ImportBinding :=
  outline.imports.flatMap fun declaration =>
    declaration.names.map fun name => ⟨declaration.module, name.imported, name.bound⟩

end Script.Outline

namespace Migration

def tracks (migration : Migration) (binding : ImportBinding) : Bool :=
  migration.modules.contains binding.module && binding.imported == migration.classes

/-- The symbols of a script, bound in the order of its imports. -/
def symbols (migration : Migration) (outline : Script.Outline) : Symbols :=
  outline.bindings.foldl (fun symbols binding =>
    symbols.bind binding.bound (migration.tracks binding)) .none

end Migration

end ClassMigration
