import ClassMigration.Deprecation
import ClassMigration.Proofs.KeyedLists

/-! Building a table entry by entry. The entries so far never repeat a key or a class name, so a table is built
from all entries or refused at the first that repeats one, and each look-up finds the one entry there is. -/
namespace ClassMigration.Deprecation

/-- Neither a key nor a class name is repeated. -/
structure Distinct (entries : List Deprecation) : Prop where
  keys : (entries.map oldKey).Nodup
  names : (entries.map oldName).Nodup

/-- What is repeated by an entry behind others. Its key comes first, and of its class the whole token is named. -/
inductive Repeats (earlier : List Deprecation) (entry : Deprecation) : Duplicate → Prop
  | key (known : entry.oldKey ∈ earlier.map oldKey) : Repeats earlier entry (.key entry.oldKey)
  | token (fresh : entry.oldKey ∉ earlier.map oldKey) (known : entry.oldName ∈ earlier.map oldName) :
    Repeats earlier entry (.token entry.oldToken)

/-- Two entries of a list, one behind the other, share a key or a class name. -/
def Sharing (entries : List Deprecation) : Prop :=
  ∃ (i j : Nat) (a b : Deprecation), i < j ∧ entries[i]? = some a ∧ entries[j]? = some b ∧
    (a.oldKey = b.oldKey ∨ a.oldName = b.oldName)

section Distinct

variable {entries earlier : List Deprecation} {entry : Deprecation}

theorem Distinct.of_append {later : List Deprecation} (distinct : Distinct (earlier ++ later)) :
    Distinct earlier where
  keys := (List.nodup_append.mp (List.map_append ▸ distinct.keys)).1
  names := (List.nodup_append.mp (List.map_append ▸ distinct.names)).1

theorem distinct_concat_iff : Distinct (earlier ++ [entry]) ↔
    Distinct earlier ∧ entry.oldKey ∉ earlier.map oldKey ∧ entry.oldName ∉ earlier.map oldName := by
  constructor
  · rintro ⟨keys, names⟩
    obtain ⟨keys, freshKey⟩ := nodup_map_concat_iff.mp keys
    obtain ⟨names, freshName⟩ := nodup_map_concat_iff.mp names
    exact ⟨⟨keys, names⟩, freshKey, freshName⟩
  · rintro ⟨⟨keys, names⟩, freshKey, freshName⟩
    exact ⟨nodup_map_concat_iff.mpr ⟨keys, freshKey⟩, nodup_map_concat_iff.mpr ⟨names, freshName⟩⟩

theorem Repeats.not_distinct {fault : Duplicate} (repeated : Repeats earlier entry fault) :
    ¬Distinct (earlier ++ [entry]) := by
  rw [distinct_concat_iff]
  rintro ⟨-, freshKey, freshName⟩
  cases repeated with
  | key known => exact freshKey known
  | token _ known => exact freshName known

theorem Repeats.unique {fault fault' : Duplicate} (repeated : Repeats earlier entry fault)
    (repeated' : Repeats earlier entry fault') : fault = fault' := by
  cases repeated with
  | key known =>
    cases repeated' with
    | key => rfl
    | token fresh => exact absurd known fresh
  | token fresh =>
    cases repeated' with
    | key known => exact absurd known fresh
    | token => rfl

theorem sharing_iff : Sharing entries ↔ ¬Distinct entries := by
  have pairs (f : Deprecation → Text) : (entries.map f).Nodup ↔
      ∀ i j (iBound : i < entries.length) (jBound : j < entries.length), i < j → f entries[i] ≠ f entries[j] := by
    rw [List.Nodup, List.pairwise_map, List.pairwise_iff_getElem]
  constructor
  · rintro ⟨i, j, a, b, before, first, second, shared⟩ ⟨keys, names⟩
    obtain ⟨iBound, rfl⟩ := List.getElem?_eq_some_iff.mp first
    obtain ⟨jBound, rfl⟩ := List.getElem?_eq_some_iff.mp second
    rcases shared with key | name
    · exact (pairs oldKey).mp keys i j iBound jBound before key
    · exact (pairs oldName).mp names i j iBound jBound before name
  · intro repeated
    refine Classical.byContradiction fun none => repeated ⟨(pairs oldKey).mpr ?_, (pairs oldName).mpr ?_⟩
    · exact fun i j iBound jBound before same => none ⟨i, j, entries[i], entries[j], before,
        List.getElem?_eq_getElem iBound, List.getElem?_eq_getElem jBound, .inl same⟩
    · exact fun i j iBound jBound before same => none ⟨i, j, entries[i], entries[j], before,
        List.getElem?_eq_getElem iBound, List.getElem?_eq_getElem jBound, .inr same⟩

end Distinct

namespace Table

variable {table table' : Table} {entries more : List Deprecation} {entry : Deprecation} {fault : Duplicate}

theorem distinct (table : Table) : Distinct table.entries := ⟨table.keys_nodup, table.names_nodup⟩

theorem ext_entries (same : table.entries = table'.entries) : table = table' := by
  cases table
  cases table'
  cases same
  rfl

/-- One step: an entry that repeats nothing is appended. -/
theorem add_eq_ok_iff : table.add entry = .ok table' ↔ table'.entries = table.entries ++ [entry] := by
  rw [add]
  split
  case isTrue key =>
    refine iff_of_false (fun ok => by cases ok) fun appended => ?_
    exact (Repeats.key key).not_distinct (appended ▸ table'.distinct)
  case isFalse freshKey =>
    split
    case isTrue name =>
      refine iff_of_false (fun ok => by cases ok) fun appended => ?_
      exact (Repeats.token freshKey name).not_distinct (appended ▸ table'.distinct)
    case isFalse =>
      rw [Except.ok.injEq]
      exact ⟨fun same => same ▸ rfl, fun appended => ext_entries appended.symm⟩

theorem add_eq_error_iff : table.add entry = .error fault ↔ Repeats table.entries entry fault := by
  have refused {found : Duplicate} (repeated : Repeats table.entries entry found) :
      (Except.error found : Except Duplicate Table) = .error fault ↔ Repeats table.entries entry fault := by
    rw [Except.error.injEq]
    exact ⟨fun same => same ▸ repeated, fun repeated' => repeated.unique repeated'⟩
  rw [add]
  split
  case isTrue key => exact refused (.key key)
  case isFalse freshKey =>
    split
    case isTrue name => exact refused (.token freshKey name)
    case isFalse freshName =>
      refine iff_of_false (fun error => by cases error) fun repeated => ?_
      exact repeated.not_distinct (distinct_concat_iff.mpr ⟨table.distinct, freshKey, freshName⟩)

theorem addAll_eq_ok_iff : table.addAll more = .ok table' ↔ table'.entries = table.entries ++ more := by
  induction more generalizing table with
  | nil =>
    rw [addAll, List.append_nil, Except.ok.injEq]
    exact ⟨fun same => same ▸ rfl, fun same => ext_entries same.symm⟩
  | cons entry more ih =>
    rw [addAll]
    cases outcome : table.add entry with
    | error fault =>
      refine iff_of_false (fun ok => by cases ok) fun appended => ?_
      have whole : Distinct ((table.entries ++ [entry]) ++ more) := by
        rw [List.append_assoc, List.singleton_append, ← appended]
        exact table'.distinct
      exact (add_eq_error_iff.mp outcome).not_distinct whole.of_append
    | ok next =>
      change next.addAll more = .ok table' ↔ _
      rw [ih, add_eq_ok_iff.mp outcome, List.append_assoc, List.singleton_append]

/-- The first entry that repeats something ends the building. -/
theorem addAll_eq_error_iff : table.addAll more = .error fault ↔
    ∃ earlier entry later, more = earlier ++ entry :: later ∧ Distinct (table.entries ++ earlier) ∧
      Repeats (table.entries ++ earlier) entry fault := by
  induction more generalizing table with
  | nil =>
    refine iff_of_false (fun error => by cases error) ?_
    rintro ⟨earlier, entry, later, none, -⟩
    simp at none
  | cons entry more ih =>
    rw [addAll]
    cases outcome : table.add entry with
    | error found =>
      have repeated := add_eq_error_iff.mp outcome
      change (Except.error found : Except Duplicate Table) = .error fault ↔ _
      rw [Except.error.injEq]
      constructor
      · rintro rfl
        exact ⟨[], entry, more, rfl, by simpa using table.distinct, by simpa using repeated⟩
      · rintro ⟨earlier, other, later, parted, distinct, repeated'⟩
        rcases earlier with _ | ⟨first, earlier⟩
        · obtain ⟨rfl, rfl⟩ := List.cons.inj parted
          exact repeated.unique (by simpa using repeated')
        · -- the list would be distinct beyond the entry that is refused
          obtain ⟨rfl, -⟩ := List.cons.inj parted
          rw [List.append_cons] at distinct
          have shorter : Distinct (table.entries ++ [entry]) := distinct.of_append
          exact absurd shorter repeated.not_distinct
    | ok next =>
      have appended := add_eq_ok_iff.mp outcome
      change next.addAll more = .error fault ↔ _
      rw [ih, appended]
      constructor
      · rintro ⟨earlier, other, later, rfl, distinct, repeated⟩
        rw [← List.append_cons] at distinct repeated
        exact ⟨entry :: earlier, other, later, rfl, distinct, repeated⟩
      · rintro ⟨earlier, other, later, parted, distinct, repeated⟩
        rcases earlier with _ | ⟨first, earlier⟩
        · obtain ⟨rfl, rfl⟩ := List.cons.inj parted
          rw [List.append_nil] at repeated
          exact absurd (appended ▸ next.distinct) repeated.not_distinct
        · obtain ⟨rfl, rfl⟩ := List.cons.inj parted
          rw [List.append_cons] at distinct repeated
          exact ⟨earlier, other, later, rfl, distinct, repeated⟩

theorem ofEntries_eq_ok_iff : ofEntries entries = .ok table ↔ table.entries = entries := addAll_eq_ok_iff

theorem ofEntries_eq_error_iff : ofEntries entries = .error fault ↔
    ∃ earlier entry later, entries = earlier ++ entry :: later ∧ Distinct earlier ∧ Repeats earlier entry fault :=
  addAll_eq_error_iff

theorem withKey?_eq_some_iff {key : Text} :
    table.withKey? key = some entry ↔ entry ∈ table.entries ∧ entry.oldKey = key :=
  find?_eq_some_iff_of_nodup table.keys_nodup

theorem withName?_eq_some_iff {name : Text} :
    table.withName? name = some entry ↔ entry ∈ table.entries ∧ entry.oldName = name :=
  find?_eq_some_iff_of_nodup table.names_nodup

/-- A table is refused exactly where two of its entries share a key or a class name, at the first that repeats an
earlier one. Otherwise it holds the entries in their order, and a look-up gives the one entry with the key or name. -/
theorem ofEntries_exact (entries : List Deprecation) :
    match ofEntries entries with
    | .error fault => Sharing entries ∧ ∃ earlier entry later, entries = earlier ++ entry :: later ∧
        Distinct earlier ∧ Repeats earlier entry fault
    | .ok table => ¬Sharing entries ∧ table.entries = entries ∧
        (∀ key entry, table.withKey? key = some entry ↔ entry ∈ entries ∧ entry.oldKey = key) ∧
        (∀ name entry, table.withName? name = some entry ↔ entry ∈ entries ∧ entry.oldName = name) ∧
        (∀ key, entries.countP (·.oldKey = key) ≤ 1) ∧ ∀ name, entries.countP (·.oldName = name) ≤ 1 := by
  cases built : ofEntries entries with
  | error fault =>
    obtain ⟨earlier, entry, later, parted, distinct, repeated⟩ := ofEntries_eq_error_iff.mp built
    refine ⟨sharing_iff.mpr fun whole => ?_, earlier, entry, later, parted, distinct, repeated⟩
    rw [parted, List.append_cons] at whole
    exact repeated.not_distinct whole.of_append
  | ok table =>
    obtain rfl := ofEntries_eq_ok_iff.mp built
    refine ⟨fun sharing => sharing_iff.mp sharing table.distinct, rfl, ?_, ?_, ?_, ?_⟩
    · exact fun key entry => withKey?_eq_some_iff
    · exact fun name entry => withName?_eq_some_iff
    · exact countP_le_one_of_nodup table.keys_nodup
    · exact countP_le_one_of_nodup table.names_nodup

/-- The class name is the token without its first character, whatever that is. -/
example :
    (ofEntries [⟨"k".codePoints, [], ".a".codePoints, []⟩, ⟨"l".codePoints, [], "#a".codePoints, []⟩]).map Table.entries =
      .error (.token "#a".codePoints) := rfl

end Table

end ClassMigration.Deprecation
