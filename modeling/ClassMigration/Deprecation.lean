import ClassMigration.Text

/-! Deprecations: each pairs the old key of a classes object with the selector token of the same class,
and both with their replacements. A table holds every key and every class name at most once. -/
namespace ClassMigration

structure Deprecation where
  oldKey : Text
  newKeys : List Text
  oldToken : Text
  newToken : Text
  deriving DecidableEq, Repr

namespace Deprecation

def token (stem key : Text) : Text := .char '.' :: stem ++ .char '-' :: key

/-- Keys and tokens made from one stem, so that the two spellings agree. -/
def ofKeys (stem oldKey : Text) (newKeys : List Text) : Deprecation where
  oldKey := oldKey
  newKeys := newKeys
  oldToken := token stem oldKey
  newToken := newKeys.flatMap (token stem)

/-- The old token without its first character. -/
def oldName (entry : Deprecation) : Text := entry.oldToken.drop 1

def newNames (entry : Deprecation) : List Text :=
  (entry.newToken.pieces '.').filter fun name => !name.isEmpty

@[simp] theorem oldName_ofKeys (stem oldKey : Text) (newKeys : List Text) :
    (ofKeys stem oldKey newKeys).oldName = stem ++ .char '-' :: oldKey := rfl

/-- What keeps two entries out of one table. -/
inductive Duplicate where
  | key (key : Text)
  | token (token : Text)
  deriving DecidableEq, Repr

def Duplicate.message : Duplicate → Text
  | key k => "Duplicate class key: ".codePoints ++ k
  | token t => "Duplicate selector token: ".codePoints ++ t

/-- Deprecations in order, without a repeated key or class name. -/
structure Table where
  entries : List Deprecation
  keys_nodup : (entries.map oldKey).Nodup
  names_nodup : (entries.map oldName).Nodup

namespace Table

def empty : Table := ⟨[], by simp, by simp⟩

/-- Appends an entry; its key is checked before its class name. -/
def add (table : Table) (entry : Deprecation) : Except Duplicate Table :=
  if key : entry.oldKey ∈ table.entries.map oldKey then .error (.key entry.oldKey)
  else if name : entry.oldName ∈ table.entries.map oldName then .error (.token entry.oldToken)
  else .ok {
    entries := table.entries ++ [entry]
    keys_nodup := by
      rw [List.map_append, List.nodup_append]
      exact ⟨table.keys_nodup, by simp, by
        intro a mem b same; simp at same; subst same; rintro rfl; exact key mem⟩
    names_nodup := by
      rw [List.map_append, List.nodup_append]
      exact ⟨table.names_nodup, by simp, by
        intro a mem b same; simp at same; subst same; rintro rfl; exact name mem⟩ }

def addAll : Table → List Deprecation → Except Duplicate Table
  | table, [] => .ok table
  | table, entry :: more => do addAll (← table.add entry) more

def ofEntries (entries : List Deprecation) : Except Duplicate Table := empty.addAll entries

def withKey? (table : Table) (key : Text) : Option Deprecation :=
  table.entries.find? (·.oldKey == key)

/-- The entry with this class name, written without the leading dot. -/
def withName? (table : Table) (name : Text) : Option Deprecation :=
  table.entries.find? (·.oldName == name)

/-- A mistake that lets a second run edit the output of the first. -/
inductive Problem where
  | withoutReplacement (entry : Deprecation)
  | deprecatedKey (entry : Deprecation) (key : Text)
  | deprecatedName (entry : Deprecation) (name : Text)
  deriving DecidableEq, Repr

def Problem.message : Problem → Text
  | withoutReplacement entry => entry.oldKey ++ ": no replacement keys".codePoints
  | deprecatedKey entry key =>
    entry.oldKey ++ ": replacement key '".codePoints ++ key ++ "' is itself deprecated".codePoints
  | deprecatedName entry name =>
    entry.oldToken ++ ": replacement class '.".codePoints ++ name ++ "' is itself deprecated".codePoints

/-- The problems of one entry: no key, then its deprecated keys, then its deprecated names. -/
def problemsOf (table : Table) (entry : Deprecation) : List Problem :=
  (if entry.newKeys.isEmpty then [.withoutReplacement entry] else []) ++
  (entry.newKeys.filter fun key => (table.withKey? key).isSome).map (.deprecatedKey entry) ++
  (entry.newNames.filter fun name => (table.withName? name).isSome).map (.deprecatedName entry)

/-- Every problem, entry by entry; a sound table has none. -/
def problems (table : Table) : List Problem := table.entries.flatMap table.problemsOf

end Table

end Deprecation

end ClassMigration
