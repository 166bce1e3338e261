import ClassMigration.Edit
import ClassMigration.Symbols
import ClassMigration.Text.Blank

/-! Template slots: a slot that holds a deprecated key of the classes object, after the text that makes it
a class selector, becomes selector text. Only blanks may stand beside the key in its slot. -/
namespace ClassMigration

open Script

/-- A member in a slot whose key is deprecated. -/
structure SlotMatch where
  member : Member
  /-- The slot's position in its template. -/
  slot : Nat
  /-- The chunk before the slot. -/
  preceding : Text
  entry : Deprecation
  deriving DecidableEq, Repr

namespace Migration

variable (migration : Migration)

/-- The match of a member, whatever its object. -/
def slotMatch? (member : Member) : Option SlotMatch :=
  match member.place with
  | .inside _ => none
  | .slot chunks index => do
    let preceding ← chunks[index]?
    if preceding.endsWith migration.marker then
      let entry ← migration.table.withKey? (← member.property)
      return ⟨member, index, preceding, entry⟩
    else none

def isTrackedMember (symbols : Symbols) (member : Member) : Bool :=
  match member.object with
  | some name => !name.isEmpty && symbols.isTracked name
  | none => false

def slotMatches (outline : Outline) (symbols : Symbols) : List SlotMatch :=
  (outline.members.filter (isTrackedMember symbols)).filterMap migration.slotMatch?

end Migration

namespace Slot

/-- The number of characters before `offset` up to the blanks that end there. -/
def beforeBlanks (source : Text) (offset : Nat) : Nat :=
  ((source.take offset).reverse.dropWhile isBlank).length

/-- The first offset from `offset` on at which no blank stands. -/
def afterBlanks (source : Text) (offset : Nat) : Nat :=
  offset + ((source.drop offset).takeWhile isBlank).length

/-- From the marker before the slot's opening to the brace that ends the slot; none when anything but
blanks stands between the member and the slot's ends, or no marker before them. -/
def span? (source marker : Text) (member : Span) : Option Span :=
  let opening := beforeBlanks source member.start
  let closing := afterBlanks source member.stop
  if 2 ≤ opening && source.slice (opening - 2) opening == [.char '$', .char '\x7b'] &&
      source[closing]? == some (.char '\x7d') && marker.length ≤ opening - 2 &&
      source.slice (opening - 2 - marker.length) (opening - 2) == marker then
    some ⟨opening - 2 - marker.length, closing + 1⟩
  else none

end Slot

namespace Migration

/-- The edit of a match: the marker and the slot become the replacement's selector. -/
def slotEdit? (migration : Migration) (source : Text) (found : SlotMatch) : Option Edit :=
  (Slot.span? source migration.marker found.member.span).map fun span =>
    ⟨span, migration.nesting ++ found.entry.newToken⟩

def slotEdits (migration : Migration) (outline : Outline) (symbols : Symbols) : List Edit :=
  (migration.slotMatches outline symbols).filterMap (migration.slotEdit? outline.source)

end Migration

end ClassMigration
