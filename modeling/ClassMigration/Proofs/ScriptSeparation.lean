import ClassMigration.Proofs.SlotReferents
import ClassMigration.Proofs.SlotSpan

/-! The edits of a script are separate. The edit of a slot reaches beyond its member, but only over what stands
beside the member in the slot; so where the outline's own spans are separate, the edits are, and all of
them can be made. -/
namespace ClassMigration

namespace Text

theorem find?_eq_some {text part : Text} {offset : Nat} (found : text.find? part = some offset) :
    ∃ front back, text = front ++ part ++ back ∧ front.length = offset := by
  fun_induction find? text part generalizing offset with
  | case1 text opens =>
    obtain ⟨back, same⟩ := startsWith_iff.mp opens
    exact ⟨[], back, same.symm, Option.some.inj found⟩
  | case2 => cases found
  | case3 c rest fails ih =>
    obtain ⟨k, later, rfl⟩ := Option.map_eq_some_iff.mp found
    obtain ⟨front, back, rfl, rfl⟩ := ih later
    exact ⟨c :: front, back, rfl, rfl⟩

end Text

namespace Script

variable {source : Text} {literal : StringLiteral} {span : Span}

theorem StringLiteral.place?_inside (order : literal.span.start ≤ literal.span.stop)
    (found : literal.place? source = some span) :
    literal.span.start ≤ span.start ∧ span.start ≤ span.stop ∧ span.stop ≤ literal.span.stop := by
  rw [place?] at found
  split at found
  case isTrue =>
    obtain rfl := Option.some.inj found
    exact ⟨Nat.le_refl _, order, Nat.le_refl _⟩
  case isFalse =>
    obtain ⟨offset, inside, rfl⟩ := Option.map_eq_some_iff.mp found
    obtain ⟨front, back, whole, rfl⟩ := Text.find?_eq_some inside
    have lengths := congrArg List.length whole
    rw [Span.text, Text.length_slice, List.length_append, List.length_append] at lengths
    dsimp only
    omega

def Member.isNamedSlot (member : Member) : Bool :=
  match member.place, member.object, member.property with
  | .slot .., some (_ :: _), some _ => true
  | _, _, _ => false

/-- The members that stand in slots by themselves with names for object and property. -/
def Outline.namedSlots (outline : Outline) : List Member := outline.members.filter Member.isNamedSlot

/-- The spans of an outline as reading a script reports them. The place of a literal's text within its span
does not matter. -/
structure Outline.Reported (outline : Outline) : Prop where
  quoted : ∀ literal ∈ outline.strings, literal.span.Quoted outline.source
  solid : ∀ member ∈ outline.namedSlots, member.span.Solid outline.source
  separate : (outline.namedSlots.map Member.span ++ outline.strings.map StringLiteral.span).Pairwise
    Span.Separate

instance (outline : Outline) : Decidable outline.Reported :=
  decidable_of_iff ((∀ literal ∈ outline.strings, literal.span.Quoted outline.source) ∧
      (∀ member ∈ outline.namedSlots, member.span.Solid outline.source) ∧
      (outline.namedSlots.map Member.span ++ outline.strings.map StringLiteral.span).Pairwise Span.Separate)
    ⟨fun h => ⟨h.1, h.2.1, h.2.2⟩, fun h => ⟨h.quoted, h.solid, h.separate⟩⟩

end Script

open Script

namespace Span

variable {a b inner : Span}

/-- A part of one of two separate spans is separate from the other one. -/
theorem Separate.part (separate : a.Separate b) (start : b.start ≤ inner.start) (stop : inner.stop ≤ b.stop) :
    a.Separate inner := by
  rcases separate with before | behind
  · exact .inl (Nat.le_trans before start)
  · exact .inr (Nat.le_trans stop behind)

end Span

namespace Migration

variable {migration : Migration} {outline : Outline} {options : Options} {member : Member}
  {literal : StringLiteral} {edit : Edit}

theorem slotMatch?_eq_some {found : SlotMatch} (isMatch : migration.slotMatch? member = some found) :
    found.member = member ∧ (∃ chunks index, member.place = .slot chunks index) ∧
      ∃ key, member.property = some key ∧ migration.table.withKey? key = some found.entry := by
  rw [slotMatch?] at isMatch
  cases place : member.place with
  | inside parent => simp [place] at isMatch
  | slot chunks index =>
    simp only [place, Option.bind_eq_bind, Option.bind_eq_some_iff] at isMatch
    obtain ⟨preceding, -, isMatch⟩ := isMatch
    split at isMatch
    case isTrue =>
      simp only [Option.bind_eq_some_iff] at isMatch
      obtain ⟨key, property, entry, known, isMatch⟩ := isMatch
      cases isMatch
      exact ⟨rfl, ⟨chunks, index, rfl⟩, key, property, known⟩
    case isFalse => cases isMatch

/-- The slot of a rewritten member is what its edit replaces. -/
theorem span?_of_memberEdit? (made : migration.memberEdit? outline member = some edit) :
    member.isNamedSlot = true ∧ Slot.span? outline.source migration.marker member.span = some edit.span := by
  obtain ⟨name, binding, object, filled, -, -, rewritten⟩ := migration.memberEdit?_eq_some_iff.mp made
  obtain ⟨found, isMatch, isEdit⟩ := Option.bind_eq_some_iff.mp rewritten
  obtain ⟨own, ⟨chunks, index, place⟩, key, property, -⟩ := slotMatch?_eq_some isMatch
  obtain ⟨c, rest, rfl⟩ := List.exists_cons_of_ne_nil filled
  obtain ⟨span, isSpan, rfl⟩ := Option.map_eq_some_iff.mp isEdit
  rw [own] at isSpan
  exact ⟨by simp [Member.isNamedSlot, place, object, property], isSpan⟩

theorem entry_of_memberEdit? (made : migration.memberEdit? outline member = some edit) :
    ∃ entry ∈ migration.table.entries, edit.text = migration.nesting ++ entry.newToken := by
  obtain ⟨-, -, -, -, -, -, rewritten⟩ := migration.memberEdit?_eq_some_iff.mp made
  obtain ⟨found, isMatch, isEdit⟩ := Option.bind_eq_some_iff.mp rewritten
  obtain ⟨-, -, key, -, known⟩ := slotMatch?_eq_some isMatch
  obtain ⟨span, -, rfl⟩ := Option.map_eq_some_iff.mp isEdit
  exact ⟨found.entry, List.mem_of_find?_eq_some known, rfl⟩

theorem place?_of_literalEdit? {source : Text}
    (made : migration.literalEdit? source options literal = some edit) :
    literal.place? source = some edit.span := by
  simp only [literalEdit?, Option.bind_eq_bind, Option.bind_eq_some_iff] at made
  obtain ⟨value, -, span, place, text, -, same⟩ := made
  cases same
  exact place

/-- No edit of a script ends before it begins, where no slot and no place of a literal does. -/
theorem scriptEdits_order_of
    (slots : ∀ member ∈ outline.members, member.isNamedSlot = true → member.span.start ≤ member.span.stop)
    (literals : ∀ literal ∈ outline.strings, ∀ span, literal.place? outline.source = some span →
      span.start ≤ span.stop) :
    ∀ edit ∈ migration.scriptEdits outline options, edit.span.start ≤ edit.span.stop := by
  intro edit mem
  rw [scriptEdits_eq_filterMap] at mem
  rcases List.mem_append.mp mem with slot | literal
  · obtain ⟨member, isMember, made⟩ := List.mem_filterMap.mp slot
    obtain ⟨named, found⟩ := span?_of_memberEdit? made
    have own := slots member isMember named
    have around := Slot.span?_order found
    omega
  · obtain ⟨literal, isLiteral, made⟩ := List.mem_filterMap.mp literal
    exact literals literal isLiteral _ (place?_of_literalEdit? made)

theorem scriptEdits_order (reported : outline.Reported) :
    ∀ edit ∈ migration.scriptEdits outline options, edit.span.start ≤ edit.span.stop := by
  refine scriptEdits_order_of (fun member isMember named => ?_) fun literal isLiteral span found => ?_
  · exact Nat.le_of_lt (reported.solid member (List.mem_filter.mpr ⟨isMember, named⟩)).filled
  · exact (literal.place?_inside (Nat.le_of_lt (reported.quoted literal isLiteral).filled) found).2.1

theorem separate_scriptEdits (nested : migration.nesting = [.char '&']) (reported : outline.Reported) :
    Edit.Separate (migration.scriptEdits outline options) := by
  obtain ⟨slots, literals, between⟩ := List.pairwise_append.mp reported.separate
  have marker : migration.marker = [.char '&', .char '.'] := by rw [Migration.marker, nested]; rfl
  rw [Edit.Separate, scriptEdits_eq_filterMap]
  refine List.pairwise_append.mpr ⟨?slots, ?literals, ?between⟩
  case slots =>
    apply List.pairwise_filterMap.mpr
    have members := List.pairwise_filter.mp (List.pairwise_map.mp slots)
    refine members.imp_of_mem ?_
    intro first second mem mem' apart edit made edit' made'
    obtain ⟨named, found⟩ := span?_of_memberEdit? made
    obtain ⟨named', found'⟩ := span?_of_memberEdit? made'
    have solid := reported.solid first (List.mem_filter.mpr ⟨mem, named⟩)
    have solid' := reported.solid second (List.mem_filter.mpr ⟨mem', named'⟩)
    have free : .char '\x7d' ∉ migration.marker := by rw [marker]; decide
    rcases apart named named' with before | behind
    · exact .inl (Slot.span?_apart found found' solid free before)
    · exact .inr (Slot.span?_apart found' found solid' free behind)
  case literals =>
    apply List.pairwise_filterMap.mpr
    refine (List.pairwise_map.mp literals).imp_of_mem ?_
    intro first second mem mem' apart edit made edit' made'
    have order := Nat.le_of_lt (reported.quoted first mem).filled
    have order' := Nat.le_of_lt (reported.quoted second mem').filled
    obtain ⟨start, -, stop⟩ := first.place?_inside order (place?_of_literalEdit? made)
    obtain ⟨start', -, stop'⟩ := second.place?_inside order' (place?_of_literalEdit? made')
    exact ((apart.part start' stop').symm.part start stop).symm
  case between =>
    intro edit isSlot edit' isLiteral
    obtain ⟨member, mem, made⟩ := List.mem_filterMap.mp isSlot
    obtain ⟨literal, mem', made'⟩ := List.mem_filterMap.mp isLiteral
    obtain ⟨named, found⟩ := span?_of_memberEdit? made
    have quoted := reported.quoted literal mem'
    have apart : member.span.Separate literal.span :=
      between _ (List.mem_map_of_mem (List.mem_filter.mpr ⟨mem, named⟩)) _ (List.mem_map_of_mem mem')
    have free : .char '\'' ∉ migration.marker ∧ .char '"' ∉ migration.marker := by rw [marker]; decide
    obtain ⟨start, -, stop⟩ :=
      literal.place?_inside (Nat.le_of_lt quoted.filled) (place?_of_literalEdit? made')
    exact (Slot.span?_separate_quoted found quoted free apart).part start stop

/-- The edits of a script with spans as they are reported are separate, so the script has an outcome: no two
edits overlap. -/
theorem editOutline_separate (migration : Migration) (nested : migration.nesting = [.char '&']) (outline : Outline)
    (reported : outline.Reported) (options : Options) :
    Edit.Separate (migration.scriptEdits outline options) ∧
      (∃ outcome, migration.editOutline outline options = .ok outcome) ∧
      ∀ source file, Outline.read source = .ok outline →
        ∃ outcome, migration.editScript source options file = .ok outcome := by
  have separate : Edit.Separate (migration.scriptEdits outline options) :=
    separate_scriptEdits nested reported
  obtain ⟨outcome, made⟩ : ∃ outcome, migration.editOutline outline options = .ok outcome :=
    (Outcome.exists_ofEdits_iff (scriptEdits_order reported)).mpr separate
  refine ⟨separate, ⟨outcome, made⟩, fun source file read => ⟨outcome, ?_⟩⟩
  rw [editScript, read]
  change (migration.editOutline outline options).mapError Failure.overlap = .ok outcome
  rw [made]
  rfl

/-- Slots that touch, with blanks in them, between literals that touch them. -/
def touching : Text :=
  "import \x7balertClasses as a\x7d from '@mui/material/Alert';
x = ['&.MuiAlert-filledInfo',`&.$\x7b a.filledInfo\t\x7d&.$\x7b
a.outlinedError\x7d`,\"&.MuiAlert-filledInfo\"]".codePoints

/-- The two slots and the two literals are all edited. -/
theorem editOutline_separate_touching :
    ∃ items, Program.parse touching = .ok items ∧ (Outline.ofItems touching items).Reported ∧
      (alert.scriptEdits (.ofItems touching items) ⟨.unset, false⟩).length = 4 ∧
      Edit.Separate (alert.scriptEdits (.ofItems touching items) ⟨.unset, false⟩) ∧
      ∃ outcome, alert.editOutline (.ofItems touching items) ⟨.unset, false⟩ = .ok outcome := by
  obtain ⟨items, parsed, reported, four⟩ : ∃ items, Program.parse touching = .ok items ∧
      (Outline.ofItems touching items).Reported ∧
      (alert.scriptEdits (.ofItems touching items) ⟨.unset, false⟩).length = 4 :=
    Program.exists_of_run (by decide +kernel)
  obtain ⟨separate, made, -⟩ := editOutline_separate alert rfl _ reported ⟨.unset, false⟩
  exact ⟨items, parsed, reported, four, separate, made⟩

end Migration

end ClassMigration
