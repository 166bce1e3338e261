import ClassMigration.Proofs.SheetStability
import ClassMigration.Proofs.SlotSpan
import ClassMigration.Proofs.Stylesheet.Spelled

/-! The order of a stylesheet's edits. The classes of its selectors come in the order of their dots, however
the rules are nested. An edited class stands in the source as it is read, so no dot is in its name, and the
next class begins behind it. -/
namespace ClassMigration

namespace Stylesheet

open Piece (textOf)

variable {source : Text} {m n : Mention}

/-- The dot of a mention stands in the source, and behind it the spelling of the name. -/
theorem Mention.Spelled.in_source (spelled : m.Spelled [] (normalized source)) :
    ∃ rest, source.drop ((LineIndex.ofSource source).offset m.dot) = .char '.' :: rest ∧
      (Scanner.name (normalized rest).length (normalized rest)).1 = m.name := by
  obtain ⟨x, y, cut, dot, name⟩ := spelled
  rw [List.nil_append] at dot
  have after := (LineIndex.offset_after source x ('.' :: y) cut).2.2
  rw [← dot] at after
  have opens : [.char '.'] <+: normalized (source.drop ((LineIndex.ofSource source).offset m.dot)) := by
    rw [after]
    exact ⟨y, rfl⟩
  rw [untouched_isPrefix_normalized (List.forall_mem_singleton.mpr untouched_dot)] at opens
  obtain ⟨rest, same⟩ := opens
  rw [← same, List.singleton_append, normalized_cons_of_untouched untouched_dot] at after
  obtain rfl := (List.cons.inj after).2
  exact ⟨rest, same.symm, name⟩

theorem Mention.Spelled.getElem?_dot (spelled : m.Spelled [] (normalized source)) :
    source[(LineIndex.ofSource source).offset m.dot]? = some (.char '.') := by
  obtain ⟨rest, behind, -⟩ := spelled.in_source
  rw [← List.head?_drop, behind]
  rfl

theorem Mention.Later.offset_lt (later : m.Later n) (inside : m.Inside [] (normalized source))
    (inside' : n.Inside [] (normalized source)) :
    (LineIndex.ofSource source).offset m.dot < (LineIndex.ofSource source).offset n.dot := by
  have distinct := mt (inside.dot_eq inside') later.ne
  obtain ⟨x, y, cut, dot, -⟩ := inside
  obtain ⟨x', y', cut', dot', -⟩ := inside'
  obtain ⟨w, some, behind⟩ := later
  rw [List.nil_append] at dot dot'
  -- What stands before one of the two dots also stands before the other.
  rcases List.prefix_or_prefix_of_prefix ⟨_, cut.symm⟩ ⟨_, cut'.symm⟩ with ⟨u, rfl⟩ | ⟨u, rfl⟩
  · rw [List.append_assoc] at cut'
    have order := LineIndex.offset_le cut'
    rw [← dot, ← dot'] at order
    exact Nat.lt_of_le_of_ne order distinct
  · have ahead : n.dot.after u = m.dot := by rw [dot, dot', Position.after_append]
    have around : n.dot.after (u ++ w) = n.dot := by rw [Position.after_append, ahead, ← behind]
    exact absurd around (n.dot.after_ne (by simp [some]))

/-- The classes of a sheet that is read are made by mentions, one behind the other and spelled out. -/
theorem Sheet.exists_row {sheet : Sheet} (read : Sheet.read source = .ok sheet) :
    ∃ ms, Mention.Row [] (normalized source) ms ∧ (∀ m ∈ ms, m.Spelled [] (normalized source)) ∧
      classesIn sheet.rules = ms.map (Mention.part (.ofSource source)) := by
  obtain ⟨rules, rfl, collected⟩ := Migration.read_eq_ok.mp read
  obtain ⟨pieces, text, scans⟩ := Scans.exists_whole (normalized source)
  obtain ⟨ms, sub, made⟩ := Item.madeBy_ofValues collected
  rw [Scans.valuesOf_eq text scans] at sub
  have row := scans.inRow [] false
  have spelled := scans.allSpelled [] false
  have whole : pending false ++ (textOf pieces ++ []) = normalized source := by
    rw [List.append_nil, text]
    rfl
  rw [whole] at spelled
  change Mention.Row [] (textOf pieces) _ at row
  rw [text] at row
  refine ⟨ms, ⟨?_, row.2.sublist sub⟩, ?_, made⟩
  · exact fun m mem => row.1 m (sub.subset mem)
  · exact fun m mem => spelled m (sub.subset mem)

end Stylesheet

open Stylesheet

namespace Migration

variable {migration : Migration} {source : Text} {sheet : Sheet} {c : ClassPart} {edit : Edit} {m : Mention}

theorem slice_of_classEdit? (edited : migration.classEdit? source c = some edit) :
    source.slice (c.span.start + 1) c.span.stop = c.name := by
  obtain ⟨entry, named, text, -⟩ := classEdit?_eq_some.mp edited
  have own : entry.oldName = c.name := (Deprecation.Table.withName?_eq_some_iff.mp named).2
  rw [← own, Deprecation.oldName, ← text, Span.text, Text.slice, Text.slice, List.drop_drop]

/-- An edited class has no dot in its name: nothing in the name is escaped. -/
theorem no_dot_of_classEdit? (spelled : m.Spelled [] (normalized source))
    (edited : migration.classEdit? source (m.part (.ofSource source)) = some edit) : .char '.' ∉ m.name := by
  obtain ⟨rest, behind, name⟩ := spelled.in_source
  have taken : rest.take (Serialize.ident m.name).length = m.name := by
    have own := slice_of_classEdit? edited
    rw [Mention.part, Text.slice, List.drop_take, Nat.add_sub_cancel_left, ← List.drop_drop, behind] at own
    exact own
  -- Either the name is there as long as it is when written anew, or the text ends before.
  by_cases room : (Serialize.ident m.name).length ≤ rest.length
  · apply (Serialize.ident_spelling m.name).no_dot
    have length := congrArg List.length taken
    rw [List.length_take, Nat.min_eq_left room] at length
    exact Nat.le_of_eq length
  · have whole : rest = m.name := by
      rw [← taken, List.take_of_length_le (Nat.le_of_not_le room)]
    have spelling := Scanner.name_spelling (normalized rest).length (normalized rest)
    rw [name] at spelling
    apply spelling.no_dot
    calc
      _ ≤ (normalized rest).length := Scanner.name_length _ _
      _ ≤ rest.length := length_normalized_le rest
      _ = m.name.length := by rw [whole]

theorem classesIn_ascending (read : Sheet.read source = .ok sheet) :
    (classesIn sheet.rules).Pairwise fun c d => c.span.start < d.span.start ∧
      ∀ migration : Migration, (migration.classEdit? source c).isSome → c.span.stop ≤ d.span.start := by
  obtain ⟨ms, row, spelled, made⟩ := Sheet.exists_row read
  rw [made]
  apply List.pairwise_map.mpr
  refine row.2.imp_of_mem ?_
  intro m n mem mem' later
  have order := later.offset_lt (row.1 m mem) (row.1 n mem')
  refine ⟨order, fun migration isEdit => ?_⟩
  obtain ⟨edit, edited⟩ := Option.isSome_iff_exists.mp isEdit
  apply Nat.le_of_not_lt
  intro inside
  have dot := (spelled n mem').getElem?_dot
  have between : .char '.' ∈ (m.part (.ofSource source)).name := by
    rw [← slice_of_classEdit? edited]
    exact Text.mem_slice order inside dot
  exact no_dot_of_classEdit? (spelled m mem) edited between

theorem span_of_classEdit? (edited : migration.classEdit? source c = some edit) : edit.span = c.span := by
  obtain ⟨entry, -, -, rfl⟩ := classEdit?_eq_some.mp edited
  rfl

theorem classesIn_filled (read : Sheet.read source = .ok sheet) :
    ∀ c ∈ classesIn sheet.rules, c.span.start < c.span.stop := by
  obtain ⟨ms, -, -, made⟩ := Sheet.exists_row read
  rw [made]
  intro c mem
  obtain ⟨m, -, rfl⟩ := List.mem_map.mp mem
  exact Nat.lt_add_right _ (Nat.lt_succ_self _)

theorem source_of_read (read : Sheet.read source = .ok sheet) : sheet.source = source := by
  obtain ⟨rules, rfl, -⟩ := read_eq_ok.mp read
  rfl

theorem sheet_edits_of_read (read : Sheet.read source = .ok sheet) (migration : Migration) :
    sheet.edits [migration] = (classesIn sheet.rules).filterMap (migration.classEdit? source) := by
  rw [← source_of_read read]
  exact sheet_edits migration sheet.source sheet.rules

theorem exists_class_of_mem_edits {migrations : List Migration} (mem : edit ∈ sheet.edits migrations) :
    ∃ c ∈ classesIn sheet.rules, ∃ migration ∈ migrations,
      migration.classEdit? sheet.source c = some edit := by
  obtain ⟨rule, isRule, mem⟩ := List.mem_flatMap.mp mem
  obtain ⟨migration, isMigration, mem⟩ := List.mem_flatMap.mp mem
  rw [selectorEdits_eq] at mem
  obtain ⟨c, own, edited⟩ := List.mem_filterMap.mp mem
  exact ⟨c, List.mem_flatMap.mpr ⟨rule, isRule, own⟩, migration, isMigration, edited⟩

theorem edits_filled {migrations : List Migration} (read : Sheet.read source = .ok sheet) :
    ∀ e ∈ sheet.edits migrations, e.span.start < e.span.stop := by
  intro e mem
  obtain ⟨c, own, migration, -, edited⟩ := exists_class_of_mem_edits mem
  rw [span_of_classEdit? edited]
  exact classesIn_filled read c own

/-- The edits of a stylesheet come in ascending order, each behind the one before, so the stylesheet is
migrated and each class is edited at most once. -/
theorem editSheet_ascending (migration : Migration) {source : Text} {sheet : Sheet}
    (read : Sheet.read source = .ok sheet) (file : Option Text) :
    let edits := sheet.edits [migration]
    Edit.Apart edits ∧ (∀ e ∈ edits, e.span.start < e.span.stop) ∧
      (∃ outcome, editSheet [migration] source file = .ok outcome) ∧
      (classesIn sheet.rules).Pairwise (fun c d => c.span.start < d.span.start) ∧
      ∀ c ∈ classesIn sheet.rules, (edits.map Edit.span).count c.span ≤ 1 := by
  have classes := classesIn_ascending read
  have edits := sheet_edits_of_read read migration
  have filled := @edits_filled source sheet [migration] read
  have apart : Edit.Apart (sheet.edits [migration]) := by
    rw [edits]
    apply List.pairwise_filterMap.mpr
    refine classes.imp ?_
    intro c d order e edited e' edited'
    rw [span_of_classEdit? edited, span_of_classEdit? edited']
    exact order.2 migration (Option.isSome_of_mem edited)
  refine ⟨apart, filled, ?_, classes.imp And.left, ?_⟩
  · obtain ⟨outcome, made⟩ := (@Outcome.exists_ofEdits_iff source _ fun e mem =>
      Nat.le_of_lt (filled e mem)).mpr apart.separate
    refine ⟨outcome, ?_⟩
    rw [editSheet_of_read read, made]
    rfl
  · intro c _
    exact List.nodup_iff_count_le_one.mp (apart.separate.nodup_spans filled) c.span

/-- One class of a rule in an at-rule and two in the arguments of a rule nested in it; a class in the innermost
rule is escaped and stays. -/
theorem editSheet_ascending_nested :
    let source := ("@media print\x7b.MuiAlert-filledInfo\x7b" ++
      "&:not(.MuiAlert-outlinedInfo,.MuiAlert-filledError)\x7b" ++
      ".\\MuiAlert-filledInfo\x7b\x7d\x7d\x7d\x7d").codePoints
    ∃ sheet, Sheet.read source = .ok sheet ∧
      (sheet.edits [alert]).map Edit.span = [⟨13, 33⟩, ⟨40, 62⟩, ⟨63, 84⟩] ∧
      Edit.Apart (sheet.edits [alert]) ∧ ∃ outcome, editSheet [alert] source none = .ok outcome := by
  intro source
  have spans : (Sheet.read source).toOption.map (fun sheet => (sheet.edits [alert]).map Edit.span) =
      some [⟨13, 33⟩, ⟨40, 62⟩, ⟨63, 84⟩] := by decide +kernel
  cases read : Sheet.read source with
  | error fault =>
    rw [read] at spans
    cases spans
  | ok sheet =>
    obtain ⟨apart, -, outcome, -⟩ := editSheet_ascending alert read none
    rw [read] at spans
    exact ⟨sheet, rfl, Option.some.inj spans, apart, outcome⟩

end Migration

end ClassMigration
