import ClassMigration.Proofs.NewValue

/-! A new value has no newer one. A new token that ends with a class ends with one that the table was checked
for; an old token of several classes escapes that check. -/
namespace ClassMigration

namespace Text

variable {separator : CodePoint} {w : Text}

/-- What stands behind the last separator is a piece, and not the first. -/
theorem exists_pieces_append (free : separator ∉ w) (front : Text) :
    ∃ piece more, pieces separator (front ++ separator :: w) = piece :: more ∧ w ∈ more := by
  induction front with
  | nil => exact ⟨[], [w], by simp [pieces, pieces_of_notMem free], List.mem_singleton_self w⟩
  | cons c front ih =>
    obtain ⟨piece, more, cut, last⟩ := ih
    rw [List.cons_append, pieces, cut]
    split
    · exact ⟨[], piece :: more, rfl, List.mem_cons_of_mem piece last⟩
    · exact ⟨c :: piece, more, rfl, last⟩

theorem replaceEnding?_eq_some {text ending replacement new : Text}
    (replaced : text.replaceEnding? ending replacement = some new) :
    ∃ front, text = front ++ ending ∧ new = front ++ replacement := by
  unfold replaceEnding? at replaced
  split at replaced
  · cases replaced
  · rename_i fits
    simp only [Bool.or_eq_true, Bool.not_eq_true', not_or, Bool.not_eq_false, endsWith_iff] at fits
    obtain ⟨front, rfl⟩ := fits.2
    refine ⟨front, rfl, ?_⟩
    simpa using replaced.symm

end Text

namespace Deprecation.Table

/-- Every new token ends with a dot and a name without dots. -/
def Classed (table : Table) : Prop :=
  ∀ entry ∈ table.entries, ∃ front name, entry.newToken = front ++ .char '.' :: name ∧ .char '.' ∉ name ∧ name ≠ []

variable {table : Table} {entry : Deprecation}

theorem newKeys_ne_nil (sound : table.problems = []) (mem : entry ∈ table.entries) : entry.newKeys ≠ [] := by
  have own : table.problemsOf entry = [] := List.flatMap_eq_nil_iff.mp sound entry mem
  simp only [problemsOf, List.append_eq_nil_iff] at own
  rintro empty
  simp [empty] at own

theorem Keyed.classed (keyed : table.Keyed) (sound : table.problems = []) : table.Classed := by
  intro entry mem
  have some := newKeys_ne_nil sound mem
  obtain ⟨stem, oldKey, newKeys, rfl, stemChars, chars⟩ := keyed entry mem
  obtain ⟨before, key, rfl⟩ := (List.eq_nil_or_concat newKeys).resolve_left some
  refine ⟨before.flatMap (token stem), className stem key, by simp [ofKeys, token_eq], fun dot => ?_, ?_⟩
  · have := isKeyChar_className stemChars (chars key (by simp)) '.' dot
    revert this
    decide
  · simp [className]

theorem mem_newNames {front name : Text} (token : entry.newToken = front ++ .char '.' :: name) (free : .char '.' ∉ name)
    (some : name ≠ []) : name ∈ entry.newNames := by
  obtain ⟨piece, more, cut, last⟩ := Text.exists_pieces_append free front
  rw [newNames, token, cut]
  apply List.mem_filter.mpr
  exact ⟨List.mem_cons_of_mem piece last, by simpa using some⟩

end Deprecation.Table

namespace Migration

variable {migration : Migration} {value new : Text}

open Deprecation

/-- What a table without problems makes of a value stays, if its old tokens are single classes and its new
tokens end with one. -/
theorem newValue?_stable (sound : migration.table.problems = []) (dotted : migration.table.Dotted)
    (classed : migration.table.Classed) (made : migration.newValue? value = some new) :
    migration.newValue? new = none := by
  obtain ⟨entry, mem, replaced⟩ := List.exists_of_findSome?_eq_some made
  obtain ⟨before, -, rfl⟩ := Text.replaceEnding?_eq_some replaced
  obtain ⟨front, name, token, free, some⟩ := classed entry mem
  apply List.findSome?_eq_none_iff.mpr
  intro other mem'
  cases again : Text.replaceEnding? _ (migration.nesting ++ other.oldToken) _ with
  | none => rfl
  | some newer =>
    -- Both texts end with a class, so they end with the same one.
    obtain ⟨before', same, -⟩ := Text.replaceEnding?_eq_some again
    obtain ⟨name', token', free'⟩ := dotted other mem'
    rw [token, token', ← List.append_assoc, ← List.append_assoc, ← List.append_assoc] at same
    have names : name = name' := eq_of_append_cons free free' same
    have absent := Table.withName?_newName sound mem (Table.mem_newNames token free some)
    rw [Table.withName?, List.find?_eq_none] at absent
    refine absurd ?_ (absent other mem')
    simp [oldName, token', names]

/-- In a table of keys the check for problems is enough. -/
theorem newValue?_stable_of_keyed (keyed : migration.table.Keyed) (sound : migration.table.problems = [])
    (made : migration.newValue? value = some new) : migration.newValue? new = none :=
  newValue?_stable sound keyed.dotted (keyed.classed sound) made

theorem alert_newValue?_stable (made : alert.newValue? value = some new) : alert.newValue? new = none :=
  newValue?_stable_of_keyed alert_fromKeys.keyed (by decide +kernel) made

/-- One class becomes two, and the two together become another. -/
def pair : Migration where
  name := "pair-classes".codePoints
  modules := []
  classes := "fooClasses".codePoints
  table := ⟨[.ofKeys "Foo".codePoints "ab".codePoints ["a".codePoints, "b".codePoints],
    ⟨"pair".codePoints, ["c".codePoints], ".Foo-a.Foo-b".codePoints, ".Foo-c".codePoints⟩], by decide, by decide⟩
  nesting := [.char '&']

/-- With an old token of two classes a table can have no problem and still edit what it made. -/
theorem newValue?_pair : pair.table.problems = [] ∧
    pair.newValue? "&.Foo-ab".codePoints = some "&.Foo-a.Foo-b".codePoints ∧
    pair.newValue? "&.Foo-a.Foo-b".codePoints = some "&.Foo-c".codePoints := by
  refine ⟨?_, ?_, ?_⟩ <;> decide

end Migration

end ClassMigration
