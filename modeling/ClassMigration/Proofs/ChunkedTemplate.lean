import ClassMigration.TemplateSlot

/-! Templates by their chunks and by what fills their slots. A slot whose member gives way to a selector is left
out of the template, and the chunks on its two sides become one. -/
namespace ClassMigration

open Script

/-- A member in a slot, with the names of its object and its property and with what is written beside it there. -/
structure SlotMember where
  object : Text
  property : Text
  before : Text
  written : Text
  after : Text

namespace SlotMember

variable {member : SlotMember} {marker : Text}

/-- Nothing but blanks stands beside the member. -/
def Plain (member : SlotMember) : Prop := ∀ c ∈ member.before ++ member.after, isBlank c = true

-- The check goes through the text; the general one over a finite type would go through all characters.
instance : DecidablePred Plain := fun member =>
  decidable_of_iff ((member.before ++ member.after).all isBlank = true) List.all_eq_true

/-- What is written beside the member does not look like another slot's end next to it: no marker with an opening
before it, as at the end of a comment, and no closing brace behind it. -/
structure Delimited (marker : Text) (member : SlotMember) : Prop where
  unopened : ∀ front blanks, member.before = front ++ .char '$' :: .char '\x7b' :: blanks →
    (∀ c ∈ blanks, isBlank c = true) →
    ∀ outer, ¬marker <:+ outer ++ .char '$' :: .char '\x7b' :: front
  unclosed : ∀ blanks back, member.after = blanks ++ .char '\x7d' :: back → ¬∀ c ∈ blanks, isBlank c = true

theorem Plain.delimited (plain : member.Plain) : member.Delimited marker where
  unopened := by
    intro front blanks same
    exact absurd (plain '$' (by simp [same])) (by decide)
  unclosed := by
    intro blanks back same
    exact absurd (plain '\x7d' (by simp [same])) (by decide)

def text (member : SlotMember) : Text := member.before ++ member.written ++ member.after

/-- The member's span where the slot opens at `opening`. -/
def span (member : SlotMember) (opening : Nat) : Span :=
  let start := opening + 2 + member.before.length
  ⟨start, start + member.written.length⟩

end SlotMember

/-- What stands between the braces of a slot. -/
inductive Filling where
  | member (member : SlotMember)
  | other (written : Text)

namespace Filling

def text : Filling → Text
  | member m => m.text
  | other written => written

/-- A member is delimited; what stands in other slots does not matter. -/
def Delimited (marker : Text) : Filling → Prop
  | member m => m.Delimited marker
  | other _ => True

def slot (filling : Filling) : Text := .char '$' :: .char '\x7b' :: (filling.text ++ [.char '\x7d'])

theorem slot_pos (filling : Filling) : 0 < filling.slot.length := Nat.succ_pos _

/-- The member as an outline reports it. -/
def member? (chunks : List Text) (index opening : Nat) : Filling → Option Member
  | member m => some ⟨some m.object, some m.property, m.span opening, .slot chunks index⟩
  | other _ => none

end Filling

/-- A template: the chunk before the first slot, and each slot with the chunk behind it. -/
structure Template where
  first : Text
  more : List (Filling × Text)

namespace Template

def chunks (template : Template) : List Text := template.first :: template.more.map Prod.snd

def textOf : List (Filling × Text) → Text
  | [] => []
  | (filling, next) :: more => filling.slot ++ (next ++ textOf more)

def text (template : Template) : Text :=
  .char '\x60' :: (template.first ++ (textOf template.more ++ [.char '\x60']))

def slotsFrom (chunk : Text) : List (Filling × Text) → List (Text × Filling)
  | [] => []
  | (filling, next) :: more => (chunk, filling) :: slotsFrom next more

def slots (template : Template) : List (Text × Filling) := slotsFrom template.first template.more

def membersFrom (chunks : List Text) : Nat → Nat → List (Filling × Text) → List Member
  | _, _, [] => []
  | index, opening, (filling, next) :: more => (filling.member? chunks index opening).toList ++
      membersFrom chunks (index + 1) (opening + filling.slot.length + next.length) more

def Delimited (marker : Text) (template : Template) : Prop := ∀ pair ∈ template.more, pair.1.Delimited marker

def members (template : Template) (start : Nat) : List Member :=
  membersFrom template.chunks 0 (start + 1 + template.first.length) template.more

/-- A script in which the template stands, as far as its slots matter. -/
def outline (template : Template) (imports : List Import) (front back : Text) : Outline where
  source := front ++ (template.text ++ back)
  imports := imports
  members := template.members front.length
  strings := []

end Template

namespace Migration

variable (migration : Migration) (symbols : Symbols)

/-- The selector that takes the place of a slot and of the marker before it: the chunk ends with the marker, and in the
slot stands by itself a member of a tracked object with a deprecated key. -/
def selectorFor? (chunk : Text) : Filling → Option Text
  | .member m =>
    if m.Plain ∧ m.object ≠ [] ∧ symbols.isTracked m.object = true ∧ chunk.endsWith migration.marker = true then
      (migration.table.withKey? m.property).map fun entry => migration.nesting ++ entry.newToken
    else none
  | .other _ => none

/-- What is left of a template's slots behind `chunk`, all those with a selector being replaced at once; `pending`
stands before the chunk. -/
def rewrittenFrom : Text → Text → List (Filling × Text) → Template
  | pending, chunk, [] => ⟨pending ++ chunk, []⟩
  | pending, chunk, (filling, next) :: more =>
    match migration.selectorFor? symbols chunk filling with
    | some selector =>
      let kept := chunk.take (chunk.length - migration.marker.length)
      rewrittenFrom (pending ++ (kept ++ selector)) next more
    | none =>
      let rest := rewrittenFrom [] next more
      ⟨pending ++ chunk, (filling, rest.first) :: rest.more⟩

def rewritten (template : Template) : Template :=
  migration.rewrittenFrom symbols [] template.first template.more

def templateEdits : Nat → Text → List (Filling × Text) → List Edit
  | _, _, [] => []
  | start, chunk, (filling, next) :: more =>
    let opening := start + chunk.length
    let stop := opening + filling.slot.length
    ((migration.selectorFor? symbols chunk filling).map fun selector =>
      Edit.mk ⟨opening - migration.marker.length, stop⟩ selector).toList ++ templateEdits stop next more

end Migration

end ClassMigration
