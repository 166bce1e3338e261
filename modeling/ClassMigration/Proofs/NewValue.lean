import Mathlib.Data.List.Nodup
import ClassMigration.Proofs.KeyedTable
import ClassMigration.SelectorLiteral

/-! New values of texts. Where every old token is a dot before a name without dots, at most one entry fits a
text, so the order of the table does not matter. -/
namespace ClassMigration

/-- Only one dot is the last. -/
theorem eq_of_append_cons {α : Type} {d : α} {a b s t : List α} (free : d ∉ s) (free' : d ∉ t)
    (same : a ++ d :: s = b ++ d :: t) : s = t := by
  rcases List.append_eq_append_iff.mp same with ⟨between, -, rest⟩ | ⟨between, -, rest⟩
  · cases between with
    | nil => exact (List.cons.inj rest).2
    | cons e between => exact absurd ((List.cons.inj rest).2 ▸ by simp) free
  · cases between with
    | nil => exact (List.cons.inj rest).2.symm
    | cons e between => exact absurd ((List.cons.inj rest).2 ▸ by simp) free'

theorem findSome?_eq_of_unique {α β : Type} {f : α → Option β} {a : α} {b : β} {l : List α} (mem : a ∈ l)
    (found : f a = some b) (unique : ∀ a' ∈ l, (f a').isSome → a' = a) : l.findSome? f = some b := by
  induction l with
  | nil => cases mem
  | cons first l ih =>
    obtain ⟨own, unique⟩ := List.forall_mem_cons.mp unique
    cases outcome : f first with
    | some b' =>
      obtain rfl := own (by rw [outcome]; rfl)
      rw [List.findSome?_cons, outcome, ← found, outcome]
    | none =>
      rw [List.findSome?_cons, outcome]
      rcases List.mem_cons.mp mem with rfl | mem
      · rw [found] at outcome
        cases outcome
      · exact ih mem unique

namespace Deprecation.Table

/-- Every old token is a dot before a name without dots. -/
def Dotted (table : Table) : Prop :=
  ∀ entry ∈ table.entries, ∃ name, entry.oldToken = .char '.' :: name ∧ .char '.' ∉ name

/-- Every entry is made from a stem and from keys of letters, digits, hyphens and low lines. -/
def Keyed (table : Table) : Prop :=
  ∀ entry ∈ table.entries, ∃ stem oldKey newKeys, entry = .ofKeys stem oldKey newKeys ∧
    (∀ c ∈ stem, isKeyChar c) ∧ ∀ key ∈ oldKey :: newKeys, ∀ c ∈ key, isKeyChar c

variable {table : Table} {entry : Deprecation}

theorem isKeyChar_className {stem key : Text} (stemChars : ∀ c ∈ stem, isKeyChar c)
    (chars : ∀ c ∈ key, isKeyChar c) : ∀ c ∈ className stem key, isKeyChar c := by
  intro c mem
  rcases List.mem_append.mp mem with front | back
  · exact stemChars c front
  · rcases List.mem_cons.mp back with rfl | own
    · exact .inr (.inl rfl)
    · exact chars c own

theorem Keyed.chars (keyed : table.Keyed) (mem : entry ∈ table.entries) :
    ∀ c ∈ entry.oldToken ++ entry.newToken, c = '.' ∨ isKeyChar c := by
  obtain ⟨stem, oldKey, newKeys, rfl, stemChars, chars⟩ := keyed entry mem
  have ofToken (key : Text) (isKey : key ∈ oldKey :: newKeys) :
      ∀ c ∈ token stem key, c = '.' ∨ isKeyChar c := by
    intro c mem
    rcases List.mem_cons.mp mem with dot | own
    · exact .inl dot
    · exact .inr (isKeyChar_className stemChars (chars key isKey) c own)
  intro c mem
  rcases List.mem_append.mp mem with old | new
  · exact ofToken oldKey List.mem_cons_self c old
  · obtain ⟨key, isKey, own⟩ := List.mem_flatMap.mp new
    exact ofToken key (List.mem_cons_of_mem _ isKey) c own

theorem Keyed.dotted (keyed : table.Keyed) : table.Dotted := by
  intro entry mem
  obtain ⟨stem, oldKey, newKeys, rfl, stemChars, chars⟩ := keyed entry mem
  refine ⟨className stem oldKey, rfl, fun dot => ?_⟩
  have := isKeyChar_className stemChars (chars oldKey List.mem_cons_self) (.char '.') dot
  revert this
  decide

theorem FromKeys.keyed {stem : Text} (made : table.FromKeys stem) : table.Keyed := by
  intro entry mem
  obtain ⟨oldKey, newKeys, same, -, chars⟩ := made.made entry mem
  exact ⟨stem, oldKey, newKeys, same, made.stemChars, chars⟩

theorem eq_of_oldName {other : Deprecation} (mem : entry ∈ table.entries) (mem' : other ∈ table.entries)
    (same : entry.oldName = other.oldName) : entry = other :=
  List.inj_on_of_nodup_map table.names_nodup mem mem' same

end Deprecation.Table

namespace Migration

variable {migration : Migration} {entry : Deprecation}

/-- A text has at most one nested old token at its end: both tokens begin at the last dot. -/
theorem eq_of_endings (dotted : migration.table.Dotted) {other : Deprecation} {value : Text}
    (mem : entry ∈ migration.table.entries) (mem' : other ∈ migration.table.entries)
    (ends : migration.nesting ++ entry.oldToken <:+ value)
    (ends' : migration.nesting ++ other.oldToken <:+ value) : entry = other := by
  obtain ⟨name, token, free⟩ := dotted entry mem
  obtain ⟨name', token', free'⟩ := dotted other mem'
  obtain ⟨before, rfl⟩ := ends
  obtain ⟨before', same⟩ := ends'
  rw [token, token', ← List.append_assoc, ← List.append_assoc] at same
  have names := eq_of_append_cons free' free same
  refine Deprecation.Table.eq_of_oldName mem mem' ?_
  rw [Deprecation.oldName, Deprecation.oldName, token, token', names]

/-- The order of the table does not matter: a new value is what any entry that fits makes. -/
theorem newValue?_eq_some_iff (dotted : migration.table.Dotted) {value new : Text} :
    migration.newValue? value = some new ↔ ∃ entry ∈ migration.table.entries,
      value.replaceEnding? (migration.nesting ++ entry.oldToken) (migration.nesting ++ entry.newToken) = some new := by
  have ends (entry : Deprecation) (fits : (value.replaceEnding? (migration.nesting ++ entry.oldToken)
      (migration.nesting ++ entry.newToken)).isSome) : migration.nesting ++ entry.oldToken <:+ value := by
    by_contra refused
    simp [Text.replaceEnding?, Text.endsWith, refused] at fits
  constructor
  · exact List.exists_of_findSome?_eq_some
  · rintro ⟨entry, mem, made⟩
    refine findSome?_eq_of_unique mem made fun other mem' fits => ?_
    exact eq_of_endings dotted mem' mem (ends other fits) (ends entry (Option.isSome_of_mem made))

/-- Behind any text the old token of an entry, nested, becomes its new token. -/
theorem newValue?_append (dotted : migration.table.Dotted) (mem : entry ∈ migration.table.entries)
    (front : Text) :
    migration.newValue? (front ++ (migration.nesting ++ entry.oldToken)) =
      some (front ++ (migration.nesting ++ entry.newToken)) := by
  obtain ⟨name, token, -⟩ := dotted entry mem
  exact (newValue?_eq_some_iff dotted).mpr ⟨entry, mem, Text.replaceEnding?_append front _ (by simp [token])⟩

end Migration

end ClassMigration
