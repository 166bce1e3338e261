import ClassMigration.Proofs.KeyedTable

/-! Keys and class names made from one stem. A key and the name of its class are found in the same entry or in none,
and a replacement is reported as deprecated by its key as often as by its class. -/
namespace ClassMigration.Deprecation

/-- The entry is made from the stem and from its keys, and no dot is in any of them. -/
structure MadeFrom (stem : Text) (entry : Deprecation) : Prop where
  stemFree : .char '.' ∉ stem
  keysFree : ∀ key ∈ entry.oldKey :: entry.newKeys, .char '.' ∉ key
  made : entry = .ofKeys stem entry.oldKey entry.newKeys

theorem className_injective (stem : Text) : Function.Injective (className stem) := by
  intro key key' same
  simpa [className] using same

theorem className_free {stem key : Text} (stemFree : .char '.' ∉ stem) (keyFree : .char '.' ∉ key) :
    .char '.' ∉ className stem key := by
  simp [className, stemFree, keyFree]

namespace MadeFrom

variable {stem : Text} {entry : Deprecation}

theorem ofKeys {oldKey : Text} {newKeys : List Text} (stemFree : .char '.' ∉ stem)
    (keysFree : ∀ key ∈ oldKey :: newKeys, .char '.' ∉ key) : MadeFrom stem (.ofKeys stem oldKey newKeys) :=
  ⟨stemFree, keysFree, rfl⟩

theorem oldName_eq (from' : MadeFrom stem entry) : entry.oldName = className stem entry.oldKey := by
  rw [from'.made]
  rfl

theorem newNames_eq (from' : MadeFrom stem entry) : entry.newNames = entry.newKeys.map (className stem) := by
  rw [from'.made]
  refine newNames_ofKeys (fun key isNew => ?_) _
  exact className_free from'.stemFree (from'.keysFree key (List.mem_cons_of_mem _ isNew))

end MadeFrom

namespace Table

def Problem.entry : Problem → Deprecation
  | withoutReplacement entry => entry
  | deprecatedKey entry _ => entry
  | deprecatedName entry _ => entry

variable {table : Table} {stem : Text} {entry : Deprecation}

theorem entry_of_mem_problemsOf {problem : Problem} (found : problem ∈ table.problemsOf entry) :
    problem.entry = entry := by
  rcases List.mem_append.mp found with found | name
  · rcases List.mem_append.mp found with none | key
    · obtain ⟨-, none⟩ := List.mem_ite_nil_right.mp none
      rw [List.mem_singleton.mp none]
      rfl
    · obtain ⟨_, -, rfl⟩ := List.mem_map.mp key
      rfl
  · obtain ⟨_, -, rfl⟩ := List.mem_map.mp name
    rfl

theorem count_problems {problem : Problem} (mem : problem.entry ∈ table.entries) :
    table.problems.count problem = (table.problemsOf problem.entry).count problem :=
  count_flatMap_of_nodup table.keys_nodup.of_map mem fun _ _ found => (entry_of_mem_problemsOf found).symm

variable (from' : ∀ entry ∈ table.entries, MadeFrom stem entry)
include from'

theorem withName?_className (key : Text) : table.withName? (className stem key) = table.withKey? key := by
  refine Option.ext fun entry => ?_
  rw [withName?_eq_some_iff, withKey?_eq_some_iff]
  refine and_congr_right fun mem => ?_
  rw [(from' entry mem).oldName_eq, (className_injective stem).eq_iff]

theorem problemsOf_eq (mem : entry ∈ table.entries) :
    let reported := entry.newKeys.filter fun key => (table.withKey? key).isSome
    table.problemsOf entry = (if entry.newKeys.isEmpty then [.withoutReplacement entry] else []) ++
      reported.map (.deprecatedKey entry) ++ reported.map fun key => .deprecatedName entry (className stem key) := by
  intro reported
  have names : (entry.newNames.filter fun name => (table.withName? name).isSome) = reported.map (className stem) := by
    rw [(from' entry mem).newNames_eq, List.filter_map]
    congr 2
    funext key
    exact congrArg Option.isSome (withName?_className from' key)
  rw [problemsOf, names, List.map_map]
  rfl

/-- Each key is reported for an entry as often as it stands among the new keys, and so is its class. -/
theorem count_deprecated (mem : entry ∈ table.entries) (key : Text) :
    let reported := entry.newKeys.filter fun key => (table.withKey? key).isSome
    table.problems.count (.deprecatedKey entry key) = reported.count key ∧
      table.problems.count (.deprecatedName entry (className stem key)) = reported.count key := by
  intro reported
  have keys : Function.Injective (Problem.deprecatedKey entry) := fun _ _ same => (Problem.deprecatedKey.inj same).2
  have names : Function.Injective fun key => Problem.deprecatedName entry (className stem key) :=
    fun _ _ same => className_injective stem (Problem.deprecatedName.inj same).2
  have none {found : List Problem} {problem : Problem} (absent : problem ∉ found) : found.count problem = 0 :=
    List.count_eq_zero.mpr absent
  constructor
  · rw [count_problems mem, Problem.entry, problemsOf_eq from' mem, List.count_append, List.count_append,
      none (by split <;> simp), List.count_map_of_injective _ _ keys, none (by simp), Nat.zero_add, Nat.add_zero]
  · rw [count_problems mem, Problem.entry, problemsOf_eq from' mem, List.count_append, List.count_append,
      none (by split <;> simp), none (by simp), Nat.zero_add]
    exact List.count_map_of_injective reported _ names key

end Table

/-- From a stem and keys without dots, no old key being given twice, a table is built. A key and the name of its class
have one entry in it or none, the new names are those of the new keys, and a new key is reported as deprecated as often
as its class is. -/
theorem keys_agree_with_names {stem : Text} {given : List (Text × List Text)} (stemFree : .char '.' ∉ stem)
    (keysFree : ∀ keys ∈ given, ∀ key ∈ keys.1 :: keys.2, .char '.' ∉ key) (distinct : (given.map Prod.fst).Nodup) :
    ∃ table, Table.ofEntries (given.map fun keys => .ofKeys stem keys.1 keys.2) = .ok table ∧
      (∀ key, table.withKey? key = table.withName? (className stem key)) ∧
      (∀ entry ∈ table.entries, entry.newNames = entry.newKeys.map (className stem)) ∧
      ∀ entry ∈ table.entries, ∀ key,
        let times := table.problems.count (.deprecatedKey entry key)
        table.problems.count (.deprecatedName entry (className stem key)) = times ∧
          times = (entry.newKeys.filter fun new => (table.withKey? new).isSome).count key := by
  have names : (given.map fun keys => className stem keys.1).Nodup := by
    have mapped := distinct.map (className_injective stem)
    rwa [List.map_map] at mapped
  let table : Table :=
    ⟨given.map fun keys => .ofKeys stem keys.1 keys.2, by rwa [List.map_map], by rwa [List.map_map]⟩
  have from' : ∀ entry ∈ table.entries, MadeFrom stem entry := by
    intro entry mem
    obtain ⟨keys, isGiven, rfl⟩ := List.mem_map.mp mem
    exact .ofKeys stemFree (keysFree keys isGiven)
  refine ⟨table, Table.ofEntries_eq_ok_iff.mpr rfl, ?_, ?_, ?_⟩
  · exact fun key => (Table.withName?_className from' key).symm
  · exact fun entry mem => (from' entry mem).newNames_eq
  · intro entry mem key
    obtain ⟨byKey, byName⟩ := Table.count_deprecated from' mem key
    exact ⟨byName.trans byKey.symm, byKey⟩

/-- A replacement that is itself deprecated, given twice beside an empty one. -/
theorem keys_agree_with_names_repeated :
    let stem := "Foo".codePoints
    let given := [("ab".codePoints, [[.char 'a'], [], [.char 'a']]), ([.char 'a'], [])]
    .char '.' ∉ stem ∧ (∀ keys ∈ given, ∀ key ∈ keys.1 :: keys.2, .char '.' ∉ key) ∧ (given.map Prod.fst).Nodup ∧
      ∃ table, Table.ofEntries (given.map fun keys => .ofKeys stem keys.1 keys.2) = .ok table ∧
        (∀ key, table.withKey? key = table.withName? (className stem key)) ∧
        ∃ entry ∈ table.entries, entry.newNames = ["Foo-a".codePoints, "Foo-".codePoints, "Foo-a".codePoints] ∧
          table.problems.count (.deprecatedKey entry [.char 'a']) = 2 ∧
          table.problems.count (.deprecatedName entry "Foo-a".codePoints) = 2 := by
  intro stem given
  have stemFree : .char '.' ∉ stem := by decide
  have keysFree : ∀ keys ∈ given, ∀ key ∈ keys.1 :: keys.2, .char '.' ∉ key := by decide
  have distinct : (given.map Prod.fst).Nodup := by decide
  obtain ⟨table, built, lookups, names, reports⟩ := keys_agree_with_names stemFree keysFree distinct
  have entries := Table.ofEntries_eq_ok_iff.mp built
  let ab := Deprecation.ofKeys stem "ab".codePoints [[.char 'a'], [], [.char 'a']]
  have first : ab ∈ table.entries := by
    rw [entries]
    exact List.mem_cons_self
  have isDeprecated : (table.withKey? [.char 'a']).isSome ∧ (table.withKey? []).isSome = false := by
    rw [Table.withKey?, Table.withKey?, entries]
    decide
  obtain ⟨byName, byKey⟩ := reports ab first [.char 'a']
  have twice : table.problems.count (.deprecatedKey ab [.char 'a']) = 2 := by
    rw [byKey]
    simp [ab, Deprecation.ofKeys, isDeprecated]
  exact ⟨stemFree, keysFree, distinct, table, built, lookups, ab, first, names ab first, twice, byName.trans twice⟩

end ClassMigration.Deprecation
