import ClassMigration.Deprecation

/-! Named migrations and the catalogue of those that can be asked for. -/
namespace ClassMigration

open Deprecation

/-- Moves the users of one classes object from its deprecated classes to their replacements. -/
structure Migration where
  name : Text
  /-- Modules that export the classes object. -/
  modules : List Text
  /-- The exported name of the classes object. -/
  classes : Text
  table : Table
  /-- Opens a nested selector, as `&` does. -/
  nesting : Text

namespace Migration

/-- The text before a slot that makes the slot a class selector. -/
def marker (migration : Migration) : Text := migration.nesting ++ [.char '.']

def passName (migration : Migration) : Text := "replace-deprecated-".codePoints ++ migration.name

def alertVariants : List Text := ["standard", "outlined", "filled"].map String.codePoints
def alertColors : List Text := ["Success", "Info", "Warning", "Error"].map String.codePoints

/-- Each combined class of a variant and a color falls into one class for either. -/
def alertEntries : List Deprecation :=
  alertVariants.flatMap fun variant => alertColors.map fun color =>
    .ofKeys "MuiAlert".codePoints (variant ++ color) [variant, "color".codePoints ++ color]

def alertTable : Table where
  entries := alertEntries
  keys_nodup := by decide +kernel
  names_nodup := by decide +kernel

def alert : Migration where
  name := "alert-classes".codePoints
  modules := ["@mui/material/Alert".codePoints]
  classes := "alertClasses".codePoints
  table := alertTable
  nesting := [.char '&']

def catalogue : List Migration := [alert]

def available : List Text := Text.sorted (catalogue.map name)

def named? (name : Text) : Option Migration := catalogue.find? (·.name == name)

end Migration

end ClassMigration
