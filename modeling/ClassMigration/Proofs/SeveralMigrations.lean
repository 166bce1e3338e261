import Mathlib.Data.List.Perm.Basic
import ClassMigration.Proofs.SheetOrder

/-! Several migrations of one stylesheet. They meet exactly if two of them edit one class; otherwise they can
be given in any order. -/
namespace ClassMigration

/-- What several functions give on several members comes in another order when taken member by member. -/
theorem flatMap_filterMap_perm {α β γ : Type} (f : α → β → Option γ) (as : List α) (bs : List β) :
    (as.flatMap fun a => bs.filterMap (f a)).Perm (bs.flatMap fun b => as.filterMap (f · b)) := by
  induction bs with
  | nil => simp
  | cons b bs ih =>
    have split : (as.flatMap fun a => (b :: bs).filterMap (f a)) =
        as.flatMap fun a => (f a b).toList ++ bs.filterMap (f a) := by
      apply congrArg (List.flatMap · as)
      funext a
      cases given : f a b <;> simp [given]
    have first : as.filterMap (f · b) = as.flatMap fun a => (f a b).toList :=
      List.filterMap_eq_flatMap_toList _ as
    rw [split, List.flatMap_cons, first]
    exact (List.flatMap_append_perm as _ _).symm.trans (ih.append_left _)

namespace Edit

variable {edits : List Edit}

theorem separate_iff_of_span {span : Span} (filled : span.start < span.stop)
    (same : ∀ e ∈ edits, e.span = span) : Separate edits ↔ edits.length ≤ 1 := by
  constructor
  · intro separate
    rcases edits with _ | ⟨a, _ | ⟨b, more⟩⟩
    · exact Nat.zero_le 1
    · exact Nat.le_refl 1
    · have apart := (List.pairwise_cons.mp separate).1 b List.mem_cons_self
      rw [same a List.mem_cons_self, same b (List.mem_cons_of_mem a List.mem_cons_self)] at apart
      rcases apart with before | before <;> exact absurd filled (Nat.not_lt_of_le before)
  · intro short
    rcases edits with _ | ⟨a, _ | ⟨b, more⟩⟩
    · exact .nil
    · exact List.pairwise_singleton _ a
    · simp at short

end Edit

open Stylesheet

namespace Stylesheet.Sheet

/-- The migration by itself edits the class. -/
def isEdited (sheet : Sheet) (c : ClassPart) (migration : Migration) : Bool :=
  (sheet.edits [migration]).any (·.span = c.span)

theorem edits_perm (sheet : Sheet) (migrations : List Migration) : (sheet.edits migrations).Perm
    ((classesIn sheet.rules).flatMap fun c => migrations.filterMap (·.classEdit? sheet.source c)) := by
  rw [classesIn, List.flatMap_assoc]
  apply List.Perm.flatMap_left
  intro rule _
  simp only [Migration.selectorEdits_eq]
  exact flatMap_filterMap_perm (fun migration : Migration => migration.classEdit? sheet.source) _ _

theorem edits_perm_of_perm (sheet : Sheet) {migrations migrations' : List Migration}
    (perm : migrations.Perm migrations') : (sheet.edits migrations).Perm (sheet.edits migrations') :=
  List.Perm.flatMap_left _ fun _ _ => perm.flatMap_right _

end Stylesheet.Sheet

namespace Migration

variable {source : Text} {sheet : Sheet} {migrations : List Migration}

theorem isEdited_eq (read : Sheet.read source = .ok sheet) {c : ClassPart} (mem : c ∈ classesIn sheet.rules)
    (migration : Migration) : sheet.isEdited c migration = (migration.classEdit? source c).isSome := by
  have starts : ((classesIn sheet.rules).map fun c => c.span.start).Nodup :=
    List.pairwise_map.mpr ((classesIn_ascending read).imp fun order => Nat.ne_of_lt order.1)
  rw [Bool.eq_iff_iff, Sheet.isEdited, List.any_eq_true, sheet_edits_of_read read]
  constructor
  · rintro ⟨edit, made, same⟩
    obtain ⟨d, own, edited⟩ := List.mem_filterMap.mp made
    have span : d.span = c.span := (span_of_classEdit? edited).symm.trans (of_decide_eq_true same)
    obtain rfl := List.inj_on_of_nodup_map starts own mem (congrArg Span.start span)
    exact Option.isSome_of_mem edited
  · intro isEdit
    obtain ⟨edit, edited⟩ := Option.isSome_iff_exists.mp isEdit
    refine ⟨edit, List.mem_filterMap.mpr ⟨c, mem, edited⟩, ?_⟩
    exact decide_eq_true (span_of_classEdit? edited)

theorem separate_edits_iff (read : Sheet.read source = .ok sheet) : Edit.Separate (sheet.edits migrations) ↔
    ∀ c ∈ classesIn sheet.rules, migrations.countP (sheet.isEdited c) ≤ 1 := by
  rw [Edit.separate_iff_of_perm (sheet.edits_perm migrations), Edit.Separate, List.pairwise_flatMap,
    source_of_read read]
  have across : (classesIn sheet.rules).Pairwise fun c d =>
      ∀ e ∈ migrations.filterMap (·.classEdit? source c), ∀ e' ∈ migrations.filterMap (·.classEdit? source d),
        e.span.Separate e'.span := by
    refine (classesIn_ascending read).imp ?_
    intro c d order e made e' made'
    obtain ⟨migration, -, edited⟩ := List.mem_filterMap.mp made
    obtain ⟨migration', -, edited'⟩ := List.mem_filterMap.mp made'
    rw [span_of_classEdit? edited, span_of_classEdit? edited']
    exact .inl (order.2 migration (Option.isSome_of_mem edited))
  rw [and_iff_left across]
  refine forall₂_congr fun c mem => ?_
  have same : ∀ e ∈ migrations.filterMap (·.classEdit? source c), e.span = c.span := by
    intro e made
    obtain ⟨migration, -, edited⟩ := List.mem_filterMap.mp made
    exact span_of_classEdit? edited
  have count : migrations.countP (sheet.isEdited c) =
      (migrations.filterMap (·.classEdit? source c)).length := by
    rw [List.length_filterMap_eq_countP]
    exact congrArg (List.countP · migrations) (funext (isEdited_eq read mem))
  rw [count]
  exact Edit.separate_iff_of_span (classesIn_filled read c mem) same

/-- Several migrations of a stylesheet overlap exactly if two of them edit one class. Otherwise they have one
outcome in whatever order they come. -/
theorem editSheet_several (migrations : List Migration) {source : Text} {sheet : Sheet}
    (read : Sheet.read source = .ok sheet) (file : Option Text) :
    ((∃ overlap, editSheet migrations source file = .error (.overlap overlap)) ↔
      ∃ c ∈ classesIn sheet.rules, 2 ≤ migrations.countP (sheet.isEdited c)) ∧
    ((∀ overlap, editSheet migrations source file ≠ .error (.overlap overlap)) → ∃ outcome,
      ∀ migrations', migrations'.Perm migrations → editSheet migrations' source file = .ok outcome) := by
  have filled := @edits_filled source sheet migrations read
  have separate := @separate_edits_iff source sheet migrations read
  have made := @Outcome.exists_ofEdits_iff source _ fun e mem => Nat.le_of_lt (filled e mem)
  rw [editSheet_of_read read]
  cases outcome : Outcome.ofEdits source (sheet.edits migrations) with
  | error overlap =>
    have shared : ¬Edit.Separate (sheet.edits migrations) := by
      rw [← made, outcome]
      rintro ⟨_, ok⟩
      cases ok
    rw [separate] at shared
    simp only [not_forall, Nat.not_le] at shared
    obtain ⟨c, mem, twice⟩ := shared
    constructor
    · exact iff_of_true ⟨overlap, rfl⟩ ⟨c, mem, twice⟩
    · exact fun fine => absurd rfl (fine overlap)
  | ok first =>
    have apart : Edit.Separate (sheet.edits migrations) := made.mp ⟨first, outcome⟩
    constructor
    · apply iff_of_false
      · rintro ⟨_, overlap⟩
        cases overlap
      · rintro ⟨c, mem, twice⟩
        exact absurd (separate.mp apart c mem) (Nat.not_le_of_lt twice)
    · refine fun _ => ⟨first, fun migrations' perm => ?_⟩
      have same := @Outcome.ofEdits_eq_of_perm source _ _ (apart.nodup_spans filled)
        (sheet.edits_perm_of_perm perm.symm)
      rw [editSheet_of_read read, ← same, outcome]
      rfl

def message : Migration where
  name := "message-classes".codePoints
  modules := []
  classes := "messageClasses".codePoints
  table := ⟨[.ofKeys "Foo".codePoints "message".codePoints ["text".codePoints]], by simp, by simp⟩
  nesting := [.char '&']

/-- Beside the migration of alerts that of another class can stand in any order, but not that of alerts
again. -/
theorem editSheet_several_alert :
    let source := ".Foo-message .MuiAlert-filledInfo\x7b\x7d".codePoints
    (∃ overlap, editSheet [alert, message, alert] source none = .error (.overlap overlap)) ∧
      ∃ outcome, outcome.edits = 2 ∧ ∀ migrations, migrations.Perm [alert, message] →
        editSheet migrations source none = .ok outcome := by
  intro source
  have twice : (Sheet.read source).toOption.map (fun sheet => (classesIn sheet.rules).map fun c =>
      [alert, message, alert].countP (sheet.isEdited c)) = some [1, 2] := by decide +kernel
  have once : (editSheet [alert, message] source none).toOption.map Outcome.edits = some 2 := by decide +kernel
  cases read : Sheet.read source with
  | error fault =>
    rw [read] at twice
    cases twice
  | ok sheet =>
    rw [read] at twice
    constructor
    · apply (editSheet_several [alert, message, alert] read none).1.mpr
      have counts : (classesIn sheet.rules).map (fun c => [alert, message, alert].countP (sheet.isEdited c)) =
          [1, 2] := Option.some.inj twice
      obtain ⟨c, mem, count⟩ := List.mem_map.mp (counts ▸ List.mem_cons_of_mem 1 List.mem_cons_self)
      exact ⟨c, mem, Nat.le_of_eq count.symm⟩
    · obtain ⟨outcome, each⟩ := (editSheet_several [alert, message] read none).2 fun overlap failed => by
        rw [failed] at once
        cases once
      rw [each [alert, message] (.refl _)] at once
      exact ⟨outcome, Option.some.inj once, each⟩

end Migration

end ClassMigration
