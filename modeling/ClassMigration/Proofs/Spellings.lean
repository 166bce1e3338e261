import ClassMigration.Proofs.KeysAndNames
import ClassMigration.Proofs.SheetStability
import ClassMigration.Proofs.Splicing
import ClassMigration.Proofs.TemplateMerging

/-! The three spellings of a deprecation. A literal, a template slot and a selector that spell the same class are given
the same replacement, each by its own pass, and the order of the table changes nothing. -/
namespace ClassMigration

open Script Stylesheet

namespace Deprecation.Table

variable {table table' : Table} {entry : Deprecation}

/-- Every entry is made from a stem and keys without dots. -/
def MadeOfKeys (table : Table) : Prop := ∀ entry ∈ table.entries, ∃ stem, MadeFrom stem entry

theorem MadeOfKeys.dotted (made : table.MadeOfKeys) : table.Dotted := by
  intro entry mem
  obtain ⟨stem, from'⟩ := made entry mem
  have free : .char '.' ∉ className stem entry.oldKey :=
    className_free from'.stemFree (from'.keysFree entry.oldKey List.mem_cons_self)
  exact ⟨className stem entry.oldKey, from'.made ▸ rfl, free⟩

theorem exists_of_perm {entries : List Deprecation} (perm : entries.Perm table.entries) :
    ∃ table', ofEntries entries = .ok table' ∧ table'.entries = entries := by
  let table' : Table := ⟨entries, (perm.map oldKey).nodup_iff.mpr table.keys_nodup,
    (perm.map oldName).nodup_iff.mpr table.names_nodup⟩
  exact ⟨table', ofEntries_eq_ok_iff.mpr rfl, rfl⟩

theorem withKey?_of_perm (perm : table'.entries.Perm table.entries) : table'.withKey? = table.withKey? := by
  funext key
  refine Option.ext fun entry => ?_
  rw [withKey?_eq_some_iff, withKey?_eq_some_iff, perm.mem_iff]

theorem withName?_of_perm (perm : table'.entries.Perm table.entries) : table'.withName? = table.withName? := by
  funext name
  refine Option.ext fun entry => ?_
  rw [withName?_eq_some_iff, withName?_eq_some_iff, perm.mem_iff]

end Deprecation.Table

theorem Edit.apply_part (front part rest new : Text) :
    Edit.apply ⟨⟨front.length, front.length + part.length⟩, new⟩ (front ++ (part ++ rest)) = front ++ new ++ rest := by
  rw [Edit.apply, List.take_left, ← List.append_assoc front, ← List.length_append, List.drop_left]

namespace Migration

variable {migration : Migration} {symbols : Symbols} {outline : Outline} {entry : Deprecation}
  {before front rest : Text} {m : SlotMember}

/-- Behind a text and the marker the script has a slot with nothing but blanks beside the member, which is one of a
tracked object. -/
structure HasSlot (migration : Migration) (symbols : Symbols) (outline : Outline) (before front : Text)
    (m : SlotMember) (rest : Text) : Prop where
  plain : m.Plain
  named : m.object ≠ []
  tracked : symbols.isTracked m.object = true
  written : outline.source = before ++ (front ++ migration.marker ++ ((Filling.member m).slot ++ rest))
  reported : ∃ chunks index, chunks[index]? = some (front ++ migration.marker) ∧
    ⟨some m.object, some m.property, m.span (before ++ (front ++ migration.marker)).length, .slot chunks index⟩ ∈
      outline.members

theorem exists_slotEdit (slot : migration.HasSlot symbols outline before front m rest)
    (mem : entry ∈ migration.table.entries) (key : m.property = entry.oldKey) :
    ∃ edit ∈ migration.slotEdits outline symbols,
      edit.apply outline.source = before ++ (front ++ (migration.nesting ++ entry.newToken) ++ rest) := by
  obtain ⟨chunks, index, here, isMember⟩ := slot.reported
  have known : migration.table.withKey? m.property = some entry :=
    Deprecation.Table.withKey?_eq_some_iff.mpr ⟨mem, key.symm⟩
  have ends : (front ++ migration.marker).endsWith migration.marker = true :=
    Text.endsWith_iff.mpr (List.suffix_append front migration.marker)
  have chosen : migration.selectorFor? symbols (front ++ migration.marker) (.member m) =
      some (migration.nesting ++ entry.newToken) := by
    simp [selectorFor?, slot.plain, slot.named, slot.tracked, ends, known]
  have delimited : (Filling.member m).Delimited migration.marker := slot.plain.delimited
  have opening : (before ++ (front ++ migration.marker)).length = _ := rfl
  have made := editAt?_member migration symbols delimited here opening rest
  rw [chosen, ← slot.written, Option.map_some] at made
  have parts : outline.source = (before ++ front) ++ ((migration.marker ++ (Filling.member m).slot) ++ rest) := by
    simp [slot.written]
  refine ⟨⟨⟨(before ++ front).length, (before ++ front).length + (migration.marker ++ (Filling.member m).slot).length⟩,
    migration.nesting ++ entry.newToken⟩, ?edit, ?text⟩
  case edit =>
    rw [slotEdits_eq_filterMap]
    refine List.mem_filterMap.mpr ⟨_, isMember, made.trans ?_⟩
    simp
    omega
  case text =>
    rw [parts, Edit.apply_part]
    simp

theorem selectorEdit_iff (mem : entry ∈ migration.table.entries) {source : Text} {rule : StyleRule} {edit : Edit}
    (old : edit.span.text source = entry.oldToken) : edit ∈ migration.selectorEdits source rule ↔
      ⟨entry.oldName, edit.span⟩ ∈ Part.classesOf rule.parts ∧ edit.text = entry.newToken := by
  rw [selectorEdits_eq, List.mem_filterMap]
  constructor
  · rintro ⟨part, isPart, made⟩
    obtain ⟨entry', known, written, rfl⟩ := classEdit?_eq_some.mp made
    obtain ⟨mem', name⟩ := Deprecation.Table.withName?_eq_some_iff.mp known
    have tokens : entry'.oldToken = entry.oldToken := written.symm.trans old
    obtain rfl : entry' = entry := Deprecation.Table.eq_of_oldName mem' mem (by simp [Deprecation.oldName, tokens])
    exact ⟨name ▸ isPart, rfl⟩
  · rintro ⟨isPart, new⟩
    refine ⟨_, isPart, classEdit?_eq_some.mpr ⟨entry, ?_, old, ?_⟩⟩
    · exact Deprecation.Table.withName?_eq_some_iff.mpr ⟨mem, rfl⟩
    · rw [← new]

theorem countP_fitting_le_one (dotted : migration.table.Dotted) (value : Text) :
    migration.table.entries.countP (fun entry => value.endsWith (migration.nesting ++ entry.oldToken)) ≤ 1 := by
  refine countP_le_one_of_unique migration.table.keys_nodup.of_map fun entry mem entry' mem' fits fits' => ?_
  exact eq_of_endings dotted mem mem' (Text.endsWith_iff.mp fits) (Text.endsWith_iff.mp fits')

theorem newValue?_of_perm (dotted : migration.table.Dotted) {table : Deprecation.Table}
    (perm : table.entries.Perm migration.table.entries) (value : Text) :
    ({ migration with table } : Migration).newValue? value = migration.newValue? value := by
  have dotted' : ({ migration with table } : Migration).table.Dotted :=
    fun entry mem => dotted entry (perm.mem_iff.mp mem)
  refine Option.ext fun new => ?_
  rw [newValue?_eq_some_iff dotted, newValue?_eq_some_iff dotted']
  exact exists_congr fun entry => and_congr_left fun _ => perm.mem_iff

/-- Let every entry of a table be made from a stem and keys without dots. Behind any text an old token that is nested
becomes the new token, nested again; the slot of the old key leaves the same behind the text, and a selector gets the
new token for the class as it is written. At most one entry fits a text, so nothing of it depends on the order in which
the table is built. -/
theorem spellings_agree (made : migration.table.MadeOfKeys) (mem : entry ∈ migration.table.entries) (front : Text) :
    migration.newValue? (front ++ (migration.nesting ++ entry.oldToken)) =
        some (front ++ (migration.nesting ++ entry.newToken)) ∧
      (∀ symbols outline before m rest, migration.HasSlot symbols outline before front m rest →
        m.property = entry.oldKey → ∃ edit ∈ migration.slotEdits outline symbols,
          edit.apply outline.source = before ++ (front ++ (migration.nesting ++ entry.newToken) ++ rest)) ∧
      (∀ source rule (edit : Edit), edit.span.text source = entry.oldToken →
        (edit ∈ migration.selectorEdits source rule ↔
          ⟨entry.oldName, edit.span⟩ ∈ Part.classesOf rule.parts ∧ edit.text = entry.newToken)) ∧
      (∀ value : Text, migration.table.entries.countP
        (fun entry => value.endsWith (migration.nesting ++ entry.oldToken)) ≤ 1) ∧
      ∀ entries, entries.Perm migration.table.entries → ∃ table, Deprecation.Table.ofEntries entries = .ok table ∧
        table.withKey? = migration.table.withKey? ∧ table.withName? = migration.table.withName? ∧
        ∀ value, ({ migration with table } : Migration).newValue? value = migration.newValue? value := by
  refine ⟨newValue?_append made.dotted mem front, ?slots, ?selectors, countP_fitting_le_one made.dotted, ?orders⟩
  case slots => exact fun symbols outline before m rest slot key => exists_slotEdit slot mem key
  case selectors => exact fun source rule edit old => selectorEdit_iff mem old
  case orders =>
    intro entries perm
    obtain ⟨table, built, rfl⟩ := Deprecation.Table.exists_of_perm perm
    exact ⟨table, built, Deprecation.Table.withKey?_of_perm perm, Deprecation.Table.withName?_of_perm perm,
      newValue?_of_perm made.dotted perm⟩

/-- A migration of two stems, one of whose classes ends as the other one is called. -/
def crossing : Migration where
  name := "crossing".codePoints
  modules := ["lib".codePoints]
  classes := "fooClasses".codePoints
  table := ⟨[.ofKeys "x".codePoints "Foo-a".codePoints ["b".codePoints],
    .ofKeys "Foo".codePoints "a".codePoints ["c".codePoints, "d".codePoints]], by decide, by decide⟩
  nesting := [.char '&']

theorem crossing_madeOfKeys : crossing.table.MadeOfKeys := by
  intro entry mem
  rcases List.mem_pair.mp mem with rfl | rfl
  · exact ⟨[.char 'x'], .ofKeys (by decide) (by decide)⟩
  · exact ⟨"Foo".codePoints, .ofKeys (by decide) (by decide)⟩

/-- The shorter class behind the longer one, as a value, as a slot and in a stylesheet. -/
theorem spellings_agree_crossing :
    let entry := Deprecation.ofKeys "Foo".codePoints [.char 'a'] [[.char 'c'], [.char 'd']]
    let front := "&.x-Foo-a ".codePoints
    let m : SlotMember := ⟨"ui".codePoints, [.char 'a'], [.char ' '], "ui.a".codePoints, []⟩
    let outline := Template.outline ⟨front ++ "&.".codePoints, [(.member m, [])]⟩
      [⟨"lib".codePoints, [⟨"fooClasses".codePoints, "ui".codePoints⟩]⟩] [] []
    let source := ".x-Foo-a .Foo-a\x7b\x7d".codePoints
    crossing.table.MadeOfKeys ∧ entry ∈ crossing.table.entries ∧
      crossing.newValue? "&.x-Foo-a &.Foo-a".codePoints = some "&.x-Foo-a &.Foo-c.Foo-d".codePoints ∧
      (∃ edit ∈ crossing.slotEdits outline (crossing.symbols outline),
        edit.apply outline.source = "\x60&.x-Foo-a &.Foo-c.Foo-d\x60".codePoints) ∧
      (∃ sheet, Sheet.read source = .ok sheet ∧ ∃ rule ∈ sheet.rules,
        ⟨⟨9, 15⟩, ".Foo-c.Foo-d".codePoints⟩ ∈ crossing.selectorEdits source rule) ∧
      ∃ table, Deprecation.Table.ofEntries crossing.table.entries.reverse = .ok table ∧
        ({ crossing with table } : Migration).newValue? "&.x-Foo-a &.Foo-a".codePoints =
          some "&.x-Foo-a &.Foo-c.Foo-d".codePoints := by
  intro entry front m outline source
  have mem : entry ∈ crossing.table.entries := by decide
  obtain ⟨value, slots, selectors, -, orders⟩ := spellings_agree crossing_madeOfKeys mem front
  obtain ⟨table, built, -, -, same⟩ := orders crossing.table.entries.reverse (List.reverse_perm _)
  have slot : crossing.HasSlot (crossing.symbols outline) outline [.char '\x60'] front m [.char '\x60'] :=
    ⟨by decide, by decide, by decide, by decide, [front ++ "&.".codePoints, []], 0, by decide, by decide⟩
  have classes : (Sheet.read source).toOption.map (fun sheet => sheet.rules.map fun rule => Part.classesOf rule.parts) =
      some [[⟨"x-Foo-a".codePoints, ⟨0, 8⟩⟩, ⟨"Foo-a".codePoints, ⟨9, 15⟩⟩]] := by decide +kernel
  refine ⟨crossing_madeOfKeys, mem, value, slots _ outline _ m _ slot rfl, ?_, table, built, (same _).trans value⟩
  cases read : Sheet.read source with
  | error fault =>
    rw [read] at classes
    cases classes
  | ok sheet =>
    rw [read] at classes
    obtain ⟨rule, isRule, parts⟩ := List.mem_map.mp (Option.some.inj classes ▸ List.mem_singleton_self _)
    refine ⟨sheet, rfl, rule, isRule, (selectors source rule _ (by decide)).mpr ⟨?_, rfl⟩⟩
    rw [parts]
    decide

end Migration

end ClassMigration
