import ClassMigration.Proofs.ScriptSeparation
import ClassMigration.Proofs.Script.Sites
import ClassMigration.Proofs.SlotExtent

/-! Slots in which the parser skips what stands beside the member. Of the characters that it skips the search
for a slot's ends takes all but two, the Mongolian vowel separator and the byte order mark: a member with one
of them beside it is not rewritten, every other one is. -/
namespace ClassMigration

open Script

namespace Script

/-- The characters that the parser skips between tokens, comments apart. -/
def isSkipped (c : CodePoint) : Bool := isSpace c || endsLine c

theorem isBlank_iff_of_isSkipped {c : CodePoint} (skipped : isSkipped c = true) :
    isBlank c = true ↔ c ≠ '\u180e' ∧ c ≠ '\ufeff' := by
  simp only [isSkipped, isSpace, endsLine, isBlank, Bool.or_eq_true, Bool.and_eq_true, decide_eq_true_eq,
    beq_iff_eq, ne_eq, ← CodePoint.toNat_inj, CodePoint.toNat_char, Char.reduceToNat] at skipped ⊢
  omega

/-- In front of a slot stand what its chunk ends with and the opening. -/
theorem Framed.opens {source : Text} {closes : Bool} {chunks : List Chunk} {slots : List Node} {i : Nat}
    {before : Chunk} {slot : Node} {ending : Text} (framed : Framed source closes chunks slots)
    (found : slots[i]? = some slot) (chunk : chunks[i]? = some before) (ends : ending <:+ before.raw) :
    ∃ start, start + ending.length + 2 = before.span.stop ∧
      source.slice start before.span.stop = ending ++ [.char '$', .char '\x7b'] := by
  have inner : (i == slots.length) = false := by
    have short := (List.getElem?_eq_some_iff.mp found).1
    simpa using Nat.ne_of_lt short
  obtain ⟨opening, more, -, here, stop⟩ := framed.stands chunk
  rw [inner, Bool.and_false] at here stop
  obtain ⟨front, raw⟩ := ends
  have length : (ending ++ [.char '$', .char '\x7b'] : Text).length = ending.length + 2 := by simp
  have width : before.raw.length = front.length + ending.length := by rw [← raw, List.length_append]
  refine ⟨before.span.start + (front.length + 1), ?_, ?_⟩
  · rw [stop, width, Quotation.delimiter]
    simp
    omega
  · have place : before.span.stop =
        before.span.start + (front.length + 1) + (ending ++ [.char '$', .char '\x7b'] : Text).length := by
      rw [stop, width, length, Quotation.delimiter]
      simp
      omega
    have drop : source.drop (before.span.start + (front.length + 1)) = ending ++ [.char '$', .char '\x7b'] ++ more := by
      rw [← List.drop_drop, here, ← raw, Quotation.delimiter]
      simp
    rw [place, Text.slice_eq_iff, drop]
    exact List.prefix_append _ _

theorem blankFrom_iff_of_skipped {source : Text} {i j : Nat} (skipped : ∀ c ∈ source.slice i j, isSkipped c = true) :
    source.BlankFrom i j ↔ ∀ c ∈ source.slice i j, c ≠ '\u180e' ∧ c ≠ '\ufeff' := by
  rw [Text.blankFrom_iff_slice]
  exact forall₂_congr fun c mem => isBlank_iff_of_isSkipped (skipped c mem)

end Script

namespace Slot

variable {source marker : Text} {member span : Span} {start opening closing : Nat}

/-- Beside skipped characters the search finds no other ends than those of the slot, and it finds them where all
of these characters are blanks. -/
theorem span?_iff_of_skipped (first : start + marker.length + 2 = opening)
    (opens : source.slice start opening = marker ++ [.char '$', .char '\x7b']) (before : opening ≤ member.start)
    (skipped : ∀ c ∈ source.slice opening member.start, isSkipped c = true) (behind : member.stop ≤ closing)
    (skipped' : ∀ c ∈ source.slice member.stop closing, isSkipped c = true)
    (closes : source[closing]? = some (.char '\x7d')) :
    span? source marker member = some span ↔
      source.BlankFrom opening member.start ∧ source.BlankFrom member.stop closing ∧ span = ⟨start, closing + 1⟩ := by
  have found (blanks : source.BlankFrom opening member.start) (blanks' : source.BlankFrom member.stop closing) :
      span? source marker member = some ⟨start, closing + 1⟩ :=
    span?_of_parts first rfl opens before blanks behind blanks' closes
  constructor
  · intro other
    obtain ⟨opening', closing', first', last', opens', before', blanks, behind', blanks', closes'⟩ :=
      exists_of_span? other
    -- neither brace is among the skipped characters
    have front : opening' ≤ opening := by
      by_contra later
      have brace := skipped _ (Text.mem_slice (by omega) (by omega) (brace_of_opens first' opens'))
      revert brace
      decide
    have back : closing ≤ closing' := by
      by_contra earlier
      have brace := skipped' _ (Text.mem_slice behind' (by omega) closes')
      revert brace
      decide
    have blanks : source.BlankFrom opening member.start := fun k c start => blanks k c (front.trans start)
    have blanks' : source.BlankFrom member.stop closing := fun k c start stop => blanks' k c start (by omega)
    exact ⟨blanks, blanks', Option.some.inj (other.symm.trans (found blanks blanks'))⟩
  · rintro ⟨blanks, blanks', rfl⟩
    exact found blanks blanks'

end Slot

namespace Migration

variable {migration : Migration} {source : Text} {items : List Node} {chunks : List Chunk} {slots : List Node}
  {place : Place} {i closing : Nat} {before : Chunk} {name key : Text} {span : Span} {entry : Deprecation}

/-- A member with a deprecated key on a tracked name, which stands in a slot behind the marker with nothing but
skipped characters beside it: the outline reports it, and it is rewritten from the marker to the slot's end,
once, exactly if none of these characters is a Mongolian vowel separator or a byte order mark. -/
theorem memberEdit?_of_skipped (parsed : Program.parse source = .ok items)
    (occurs : Node.Occurs items (.template chunks slots) place)
    (slot : slots[i]? = some (.member (.name name) (.name key) false span)) (chunk : chunks[i]? = some before)
    (marked : before.raw.endsWith migration.marker = true) (known : migration.table.withKey? key = some entry)
    (skipped : ∀ c ∈ source.slice before.span.stop span.start, isSkipped c = true) (behind : span.stop ≤ closing)
    (skipped' : ∀ c ∈ source.slice span.stop closing, isSkipped c = true)
    (closes : source[closing]? = some (.char '\x7d')) :
    let outline := Outline.ofItems source items
    let member : Member := ⟨some name, some key, span, .slot (chunks.map Chunk.raw) i⟩
    member ∈ outline.members ∧
      (isTrackedMember (migration.symbols outline) member = true → ∀ edit,
        (migration.memberEdit? outline member = some edit ↔
          (∀ c ∈ source.slice before.span.stop span.start ++ source.slice span.stop closing,
            c ≠ '\u180e' ∧ c ≠ '\ufeff') ∧
          edit = ⟨⟨before.span.stop - (migration.marker.length + 2), closing + 1⟩,
            migration.nesting ++ entry.newToken⟩)) := by
  intro outline member
  have here := occurs.slot slot
  have isMatch : migration.slotMatch? member = some ⟨member, i, before.raw, entry⟩ := by
    simp [slotMatch?, member, List.getElem?_map, chunk, marked, known]
  obtain ⟨framed, fits⟩ : Framed source true chunks slots ∧ before.span.stop ≤ span.start := by
    have stands := occurs.stands parsed
    cases stands with
    | template framed =>
      have short := (List.getElem?_eq_some_iff.mp slot).1
      have next : i + 1 < chunks.length := by
        rw [framed.length]
        omega
      exact ⟨framed, (framed.fits chunk slot (List.getElem?_eq_getElem next)).1⟩
  obtain ⟨start, first, opens⟩ := framed.opens slot chunk (Text.endsWith_iff.mp marked)
  have place : before.span.stop - (migration.marker.length + 2) = start := by omega
  refine ⟨Outline.mem_members_iff.mpr ⟨_, _, here, rfl⟩, fun tracked edit => ?_⟩
  rw [memberEdit?, editAt?, if_pos tracked, isMatch, Option.bind_some, slotEdit?, Option.map_eq_some_iff, place,
    List.forall_mem_append, ← blankFrom_iff_of_skipped skipped, ← blankFrom_iff_of_skipped skipped']
  have ends (found : Span) : Slot.span? source migration.marker span = some found ↔ _ :=
    Slot.span?_iff_of_skipped first opens fits skipped behind skipped' closes
  constructor
  · rintro ⟨found, isSpan, rfl⟩
    obtain ⟨blanks, blanks', rfl⟩ := (ends found).mp isSpan
    exact ⟨⟨blanks, blanks'⟩, rfl⟩
  · rintro ⟨⟨blanks, blanks'⟩, rfl⟩
    exact ⟨_, (ends _).mpr ⟨blanks, blanks', rfl⟩, rfl⟩

/-- A script with a byte order mark between the opening of a slot and its member. -/
def byteOrderMarked : Text :=
  "import \x7balertClasses\x7d from '@mui/material/Alert';
`&.$\x7b\ufeffalertClasses.standardSuccess\x7d`".codePoints

/-- The slot is left alone, though its member is tracked and its key is deprecated. -/
theorem byteOrderMarked_untouched :
    ∃ items, Program.parse byteOrderMarked = .ok items ∧
      ∃ member ∈ (Outline.ofItems byteOrderMarked items).members,
        isTrackedMember (alert.symbols (.ofItems byteOrderMarked items)) member = true ∧
        (alert.slotMatch? member).isSome ∧ isSkipped '\ufeff' = true ∧
        byteOrderMarked.slice (member.span.start - 5) member.span.start = "&.$\x7b\ufeff".codePoints ∧
        byteOrderMarked[member.span.stop]? = some (.char '\x7d') ∧
        alert.memberEdit? (.ofItems byteOrderMarked items) member = none :=
  Program.exists_of_run (by decide +kernel)

end Migration

end ClassMigration
