import ClassMigration.Proofs.ChunkedTemplate
import ClassMigration.Proofs.Edits
import ClassMigration.Proofs.NewValue
import ClassMigration.Proofs.SlotExtent
import ClassMigration.Proofs.SlotReferents

/-! Slots replaced by selectors. What is read before a slot that stays may grow at its front when the slots before are
replaced, but a selector ends with a character of a key, so the text ends with the marker just if it did before.
The edits of a template therefore leave nothing for a second pass. -/
namespace ClassMigration

namespace Text

/-- Text in front of a chunk completes no marker with it, if its last character is none of the marker's. -/
theorem endsWith_append {marker pending chunk : Text} (settled : ∀ c ∈ pending.getLast?, c ∉ marker) :
    (pending ++ chunk).endsWith marker = chunk.endsWith marker := by
  rw [Bool.eq_iff_iff, endsWith_iff, endsWith_iff]
  constructor
  · rintro ⟨front, same⟩
    rcases List.append_eq_append_iff.mp same with ⟨between, rfl, rfl⟩ | ⟨between, rfl, rfl⟩
    · rcases List.eq_nil_or_concat between with rfl | ⟨before, c, rfl⟩
      · exact List.suffix_rfl
      · exact absurd (by simp) (settled c (by simp))
    · exact List.suffix_append between marker
  · exact fun ends => ends.trans (List.suffix_append _ _)

theorem slice_part (front part rest : Text) :
    (front ++ (part ++ rest)).slice front.length (front.length + part.length) = part := by
  rw [slice_eq_iff, List.drop_left]
  exact List.prefix_append part rest

end Text

open Script

namespace Slot

/-- Around a member whose slot is found stand blanks, the marker and an opening before them and a closing brace behind
them. -/
theorem exists_blanks_of_span? {source marker : Text} {member span : Span}
    (found : span? source marker member = some span) :
    ∃ front blanks blanks' back, (∀ c ∈ blanks ++ blanks', isBlank c = true) ∧ marker <:+ front ∧
      source.take member.start = front ++ .char '$' :: .char '\x7b' :: blanks ∧
      source.drop member.stop = blanks' ++ .char '\x7d' :: back := by
  obtain ⟨opening, closing, first, -, opens, before, blank, behind, blank', closes⟩ := exists_of_span? found
  refine ⟨source.take span.start ++ marker, source.slice opening member.start, source.slice member.stop closing,
    source.drop (closing + 1), ?blanks, List.suffix_append _ _, ?front, ?back⟩
  case blanks =>
    exact List.forall_mem_append.mpr ⟨Text.blankFrom_iff_slice.mp blank, Text.blankFrom_iff_slice.mp blank'⟩
  case front =>
    have cut (k : Nat) : source.take k = source.slice 0 k := by simp [Text.slice]
    have whole := Text.slice_append (i := 0) (j := opening) (by omega) before source
    have start := Text.slice_append (i := 0) (j := span.start) (k := opening) (by omega) (by omega) source
    rw [cut, ← whole, ← start, opens, cut]
    simp
  case back =>
    rw [← Text.slice_append_drop behind, List.drop_eq_getElem?_toList_append, closes]
    rfl

end Slot

namespace SlotMember

variable {m : SlotMember} {marker front rest : Text}

theorem slot_eq : (Filling.member m).slot ++ rest =
    [.char '$', .char '\x7b'] ++ m.before ++ (m.written ++ (m.after ++ .char '\x7d' :: rest)) := by
  simp [Filling.slot, Filling.text, SlotMember.text]

/-- The slot of a member that stands there by itself is found together with the marker. -/
theorem span?_of_plain (plain : m.Plain) :
    Slot.span? (front ++ (marker ++ ((Filling.member m).slot ++ rest))) marker
        (m.span (front ++ marker).length) =
      some ⟨front.length, (front ++ marker).length + (Filling.member m).slot.length⟩ := by
  obtain ⟨blank, blank'⟩ := List.forall_mem_append.mp plain
  have whole : front ++ (marker ++ ((Filling.member m).slot ++ rest)) =
      front ++ ((marker ++ (Filling.member m).slot) ++ rest) := by simp
  have atMember : front ++ (marker ++ ((Filling.member m).slot ++ rest)) =
      (front ++ (marker ++ [.char '$', .char '\x7b'] ++ m.before)) ++
        (m.written ++ (m.after ++ .char '\x7d' :: rest)) := by
    rw [slot_eq]
    simp
  have start : (m.span (front ++ marker).length).start =
      (front ++ (marker ++ [.char '$', .char '\x7b'] ++ m.before) : Text).length := by
    simp [span]
    omega
  have stop : (front ++ marker).length + (Filling.member m).slot.length =
      front.length + (marker ++ (Filling.member m).slot).length := by
    simp
    omega
  have own : (front ++ (marker ++ ((Filling.member m).slot ++ rest))).slice
      (m.span (front ++ marker).length).start (m.span (front ++ marker).length).stop = m.written := by
    have written := Text.slice_part (front ++ (marker ++ [.char '$', .char '\x7b'] ++ m.before)) m.written
      (m.after ++ .char '\x7d' :: rest)
    rw [← atMember, ← start] at written
    exact written
  apply Slot.span?_of_holds
  · exact Nat.le_add_right _ _
  · rw [atMember]
    simp [span]
    omega
  · refine ⟨?_, m.before, m.after, blank, blank', ?_, ?_⟩
    · simp
      omega
    · simp [span]
    · rw [own, stop, whole, Text.slice_part]
      simp [Filling.slot, Filling.text, SlotMember.text]

/-- Blanks up to the member from the marker and an opening on are the blanks from the slot's own opening on. -/
theorem blank_before {front' blanks : Text} (delimited : m.Delimited marker)
    (same : front ++ [.char '$', .char '\x7b'] ++ m.before = front' ++ .char '$' :: .char '\x7b' :: blanks)
    (marked : marker <:+ front') (blank : ∀ c ∈ blanks, isBlank c = true) : ∀ c ∈ m.before, isBlank c = true := by
  have braces :
      (front ++ [.char '$']) ++ .char '\x7b' :: m.before = (front' ++ [.char '$']) ++ .char '\x7b' :: blanks := by
    simpa using same
  rcases List.append_eq_append_iff.mp braces with ⟨between, earlier, later⟩ | ⟨between, -, later⟩
  · rcases between with _ | ⟨brace, between⟩
    · exact (List.cons.inj later).2 ▸ blank
    -- another opening with only blanks up to the member
    exfalso
    obtain ⟨rfl, later⟩ := List.cons.inj later
    rcases List.eq_nil_or_concat between with rfl | ⟨inner, dollar, rfl⟩
    · have last := congrArg List.getLast? earlier
      simp at last
    · have regrouped : front' ++ [.char '$'] = (front ++ .char '$' :: .char '\x7b' :: inner) ++ [dollar] := by
        rw [earlier]
        simp
      obtain ⟨rfl, dollars⟩ := List.append_inj' regrouped rfl
      obtain rfl := List.singleton_inj.mp dollars
      exact delimited.unopened inner blanks (by simpa using later) blank front marked
  · rcases between with _ | ⟨brace, between⟩
    · exact (List.cons.inj later).2.symm ▸ blank
    · have inside : .char '\x7b' ∈ blanks := by simp [(List.cons.inj later).2]
      exact absurd (blank _ inside) (by decide)

/-- Blanks from the member up to a closing brace are the blanks up to the slot's own. -/
theorem blank_after {blanks back : Text} (delimited : m.Delimited marker)
    (same : m.after ++ .char '\x7d' :: rest = blanks ++ .char '\x7d' :: back)
    (blank : ∀ c ∈ blanks, isBlank c = true) : ∀ c ∈ m.after, isBlank c = true := by
  rcases List.append_eq_append_iff.mp same with ⟨between, rfl, -⟩ | ⟨between, whole, later⟩
  · exact fun c mem => blank c (List.mem_append_left _ mem)
  rcases between with _ | ⟨brace, between⟩
  · rw [whole, List.append_nil]
    exact blank
  · obtain ⟨rfl, -⟩ := List.cons.inj later
    exact absurd blank (delimited.unclosed blanks between whole)

theorem plain_of_span? {span : Span} (delimited : m.Delimited marker)
    (found : Slot.span? (front ++ ((Filling.member m).slot ++ rest)) marker (m.span front.length) = some span) :
    m.Plain := by
  obtain ⟨before, blanks, blanks', after, blank, marked, opens, closes⟩ := Slot.exists_blanks_of_span? found
  obtain ⟨blank, blank'⟩ := List.forall_mem_append.mp blank
  have atMember : front ++ ((Filling.member m).slot ++ rest) =
      (front ++ [.char '$', .char '\x7b'] ++ m.before) ++ (m.written ++ (m.after ++ .char '\x7d' :: rest)) := by
    rw [slot_eq]
    simp
  have start : (m.span front.length).start = (front ++ [.char '$', .char '\x7b'] ++ m.before : Text).length := by
    simp [SlotMember.span]
    omega
  have stop : (m.span front.length).stop =
      (front ++ [.char '$', .char '\x7b'] ++ m.before ++ m.written : Text).length := by
    simp [SlotMember.span]
    omega
  rw [atMember, start, List.take_left] at opens
  rw [atMember, ← List.append_assoc, stop, List.drop_left] at closes
  exact List.forall_mem_append.mpr ⟨blank_before delimited opens marked blank, blank_after delimited closes blank'⟩

end SlotMember

namespace Deprecation.Table

/-- Every new token is made from a stem and from keys, at least one, of letters, digits, hyphens and low lines. -/
def NewKeyed (table : Table) : Prop :=
  ∀ entry ∈ table.entries, ∃ stem oldKey newKeys, entry = .ofKeys stem oldKey newKeys ∧ newKeys ≠ [] ∧
    ∀ key ∈ newKeys, ∀ c ∈ key, isKeyChar c

variable {table : Table} {entry : Deprecation} {stem : Text}

theorem FromKeys.newKeyed (made : table.FromKeys stem) : table.NewKeyed := by
  intro entry mem
  obtain ⟨oldKey, newKeys, same, some, chars⟩ := made.made entry mem
  exact ⟨stem, oldKey, newKeys, same, some, fun key isKey => chars key (List.mem_cons_of_mem oldKey isKey)⟩

/-- A new token ends with the last character of a key, or with the hyphen before an empty one. -/
theorem NewKeyed.last (keyed : table.NewKeyed) (mem : entry ∈ table.entries) :
    ∃ front c, entry.newToken = front ++ [c] ∧ isKeyChar c := by
  obtain ⟨stem, oldKey, newKeys, rfl, some, chars⟩ := keyed entry mem
  obtain ⟨before, key, rfl⟩ := (List.eq_nil_or_concat newKeys).resolve_left some
  have tokens : (ofKeys stem oldKey (before.concat key)).newToken =
      before.flatMap (token stem) ++ .char '.' :: (stem ++ .char '-' :: key) := by
    simp [ofKeys, token]
  rcases List.eq_nil_or_concat key with rfl | ⟨front, c, rfl⟩
  · refine ⟨before.flatMap (token stem) ++ .char '.' :: stem, .char '-', ?_, .inr (.inl rfl)⟩
    rw [tokens]
    simp
  · refine ⟨before.flatMap (token stem) ++ .char '.' :: (stem ++ .char '-' :: front), c, ?_, ?_⟩
    · rw [tokens]
      simp
    · exact chars (front.concat c) (by simp) c (by simp)

end Deprecation.Table

namespace Migration

variable {migration : Migration} {symbols : Symbols} {chunk chunk' pending selector : Text} {filling : Filling}
  {more : List (Filling × Text)}

theorem selectorFor?_eq_some (found : migration.selectorFor? symbols chunk filling = some selector) :
    ∃ kept, chunk = kept ++ migration.marker ∧
      ∃ entry ∈ migration.table.entries, selector = migration.nesting ++ entry.newToken := by
  cases filling with
  | other written => cases found
  | member m =>
    simp only [selectorFor?, Option.ite_none_right_eq_some, Option.map_eq_some_iff] at found
    obtain ⟨⟨-, -, -, ends⟩, entry, known, rfl⟩ := found
    obtain ⟨kept, rfl⟩ := Text.endsWith_iff.mp ends
    exact ⟨kept, rfl, entry, List.mem_of_find?_eq_some known, rfl⟩

theorem selectorFor?_congr (same : chunk'.endsWith migration.marker = chunk.endsWith migration.marker) :
    migration.selectorFor? symbols chunk' filling = migration.selectorFor? symbols chunk filling := by
  cases filling with
  | other written => rfl
  | member m => simp only [selectorFor?, same]

section Edits

variable (migration symbols)

/-- The edit of a slot's member is the slot's selector in place of the marker and the slot. -/
theorem editAt?_member (delimited : filling.Delimited migration.marker) {chunks : List Text}
    {index opening : Nat} {front : Text} (here : chunks[index]? = some chunk)
    (place : (front ++ chunk).length = opening) (rest : Text) :
    (filling.member? chunks index opening).bind
        (migration.editAt? symbols (front ++ (chunk ++ (filling.slot ++ rest)))) =
      (migration.selectorFor? symbols chunk filling).map fun selector =>
        ⟨⟨opening - migration.marker.length, opening + filling.slot.length⟩, selector⟩ := by
  cases filling with
  | other written => rfl
  | member m =>
    simp only [Filling.member?, Option.bind_some, editAt?, isTrackedMember, selectorFor?, slotMatch?, here]
    by_cases named : m.object = []
    case pos => simp [named]
    by_cases tracked : symbols.isTracked m.object = true
    case neg => simp [tracked]
    by_cases ends : chunk.endsWith migration.marker = true
    case neg => simp [ends]
    cases known : migration.table.withKey? m.property with
    | none => simp [known]
    | some entry =>
      by_cases plain : m.Plain
      case pos =>
        have found : Slot.span? (front ++ (chunk ++ ((Filling.member m).slot ++ rest))) migration.marker
            (m.span opening) =
              some ⟨opening - migration.marker.length, opening + (Filling.member m).slot.length⟩ := by
          obtain ⟨kept, rfl⟩ := Text.endsWith_iff.mp ends
          have start : opening - migration.marker.length = (front ++ kept).length := by
            simp only [List.length_append] at place ⊢
            omega
          rw [← List.append_assoc, List.length_append, ← List.length_append] at place
          rw [start, ← place, List.append_assoc, ← List.append_assoc front]
          exact SlotMember.span?_of_plain plain
        simp [named, tracked, ends, known, plain, slotEdit?, found]
      case neg =>
        have missed : Slot.span? (front ++ (chunk ++ ((Filling.member m).slot ++ rest))) migration.marker
            (m.span opening) = none := by
          apply Option.eq_none_iff_forall_ne_some.mpr
          intro span found
          rw [← place, ← List.append_assoc] at found
          exact plain (SlotMember.plain_of_span? delimited found)
        simp [named, tracked, ends, known, plain, slotEdit?, missed]

theorem filterMap_membersFrom (done : List Text) (front chunk rest : Text) (more : List (Filling × Text))
    (delimited : ∀ pair ∈ more, pair.1.Delimited migration.marker) :
    (Template.membersFrom (done ++ chunk :: more.map Prod.snd) done.length (front.length + chunk.length)
        more).filterMap (migration.editAt? symbols (front ++ (chunk ++ (Template.textOf more ++ rest)))) =
      migration.templateEdits symbols front.length chunk more := by
  induction more generalizing done front chunk with
  | nil => rfl
  | cons pair more ih =>
    obtain ⟨filling, next⟩ := pair
    obtain ⟨ownDelimited, delimited⟩ := List.forall_mem_cons.mp delimited
    have here : (done ++ chunk :: next :: more.map Prod.snd)[done.length]? = some chunk := by simp
    have place : (front ++ chunk).length = front.length + chunk.length := List.length_append
    have own := editAt?_member migration symbols ownDelimited here place (next ++ (Template.textOf more ++ rest))
    have later := ih (done ++ [chunk]) (front ++ (chunk ++ filling.slot)) next delimited
    have single (found : Option Member) (f : Member → Option Edit) :
        found.toList.filterMap f = (found.bind f).toList := by
      cases found <;> rfl
    simp only [List.append_assoc, List.cons_append, List.nil_append, List.length_append, List.length_singleton,
      ← Nat.add_assoc] at later
    rw [Template.membersFrom, List.filterMap_append, single, templateEdits, Template.textOf, List.append_assoc,
      List.append_assoc, List.map_cons, own, later]

/-- What is pending ends up in front of the first chunk. -/
theorem rewrittenFrom_eq (pending chunk : Text) (more : List (Filling × Text)) :
    migration.rewrittenFrom symbols pending chunk more =
      ⟨pending ++ (migration.rewrittenFrom symbols [] chunk more).first,
        (migration.rewrittenFrom symbols [] chunk more).more⟩ := by
  induction more generalizing pending chunk with
  | nil => rfl
  | cons pair more ih =>
    obtain ⟨filling, next⟩ := pair
    simp only [rewrittenFrom]
    cases migration.selectorFor? symbols chunk filling with
    | none => rfl
    | some selector =>
      dsimp only
      rw [ih (pending ++ _), ih ([] ++ _)]
      simp

/-- The template's edits can be spliced in as they stand, and lead to the rewritten template. -/
theorem splice_templateEdits (front chunk rest : Text) (more : List (Filling × Text)) :
    Edit.splice (front ++ (chunk ++ (Template.textOf more ++ rest))) front.length
        (migration.templateEdits symbols front.length chunk more) =
      .ok ((migration.rewrittenFrom symbols [] chunk more).first ++
        (Template.textOf (migration.rewrittenFrom symbols [] chunk more).more ++ rest)) := by
  induction more generalizing front chunk with
  | nil => simp [templateEdits, Edit.splice, rewrittenFrom, Template.textOf]
  | cons pair more ih =>
    obtain ⟨filling, next⟩ := pair
    have later := ih (front ++ (chunk ++ filling.slot)) next
    have stop : (front ++ (chunk ++ filling.slot)).length = front.length + chunk.length + filling.slot.length := by
      simp [Nat.add_assoc]
    have whole : front ++ (chunk ++ (Template.textOf ((filling, next) :: more) ++ rest)) =
        front ++ (chunk ++ filling.slot) ++ (next ++ (Template.textOf more ++ rest)) := by
      simp [Template.textOf]
    rw [← whole, stop] at later
    rw [templateEdits, rewrittenFrom]
    cases chosen : migration.selectorFor? symbols chunk filling with
    | none =>
      have earlier := Edit.splice_earlier (i := front.length) (by omega) later
      have part : (front ++ (chunk ++ (Template.textOf ((filling, next) :: more) ++ rest))).slice front.length
          (front.length + chunk.length + filling.slot.length) = chunk ++ filling.slot := by
        rw [← stop, whole, List.append_assoc, List.length_append]
        exact Text.slice_part front (chunk ++ filling.slot) (next ++ (Template.textOf more ++ rest))
      rw [part] at earlier
      refine earlier.trans ?_
      simp [Template.textOf]
    | some selector =>
      obtain ⟨kept, rfl, -⟩ := selectorFor?_eq_some chosen
      have start : front.length + (kept ++ migration.marker).length - migration.marker.length =
          front.length + kept.length := by
        rw [List.length_append]
        omega
      apply Edit.splice_cons_ok.mpr
      refine ⟨?order, _, later, ?text⟩
      case order =>
        dsimp only
        omega
      case text =>
        dsimp only
        rw [start, List.append_assoc kept, Text.slice_part, rewrittenFrom_eq]
        simp

end Edits

theorem filled_templateEdits {start : Nat} {edit : Edit}
    (mem : edit ∈ migration.templateEdits symbols start chunk more) : edit.span.start < edit.span.stop := by
  induction more generalizing start chunk with
  | nil => cases mem
  | cons pair more ih =>
    obtain ⟨filling, next⟩ := pair
    rcases List.mem_append.mp mem with own | later
    · obtain ⟨selector, -, rfl⟩ := Option.map_eq_some_iff.mp (Option.mem_toList.mp own)
      have wide := filling.slot_pos
      dsimp only
      omega
    · exact ih later

theorem templateEdits_eq_nil {start : Nat}
    (rest : ∀ slot ∈ Template.slotsFrom chunk more, migration.selectorFor? symbols slot.1 slot.2 = none) :
    migration.templateEdits symbols start chunk more = [] := by
  induction more generalizing start chunk with
  | nil => rfl
  | cons pair more ih =>
    obtain ⟨filling, next⟩ := pair
    obtain ⟨own, rest⟩ := List.forall_mem_cons.mp rest
    rw [templateEdits, own, ih rest]
    rfl

theorem outline_source (template : Template) (imports : List Import) (front back : Text) :
    (template.outline imports front back).source =
      front ++ [.char '\x60'] ++ (template.first ++ (Template.textOf template.more ++ .char '\x60' :: back)) := by
  simp [Template.outline, Template.text]

theorem slotEdits_outline {template : Template} (delimited : template.Delimited migration.marker)
    (imports : List Import) (front back : Text) :
    migration.slotEdits (template.outline imports front back) symbols =
      migration.templateEdits symbols (front.length + 1) template.first template.more := by
  have edits := filterMap_membersFrom migration symbols [] (front ++ [.char '\x60']) template.first ('\x60' :: back)
    template.more delimited
  rw [List.length_append, List.length_singleton] at edits
  rw [slotEdits_eq_filterMap, outline_source]
  exact edits

theorem rewrittenFrom_delimited {marker : Text} (delimited : ∀ pair ∈ more, pair.1.Delimited marker) :
    (migration.rewrittenFrom symbols pending chunk more).Delimited marker := by
  induction more generalizing pending chunk with
  | nil => exact fun pair mem => absurd mem List.not_mem_nil
  | cons pair more ih =>
    obtain ⟨filling, next⟩ := pair
    obtain ⟨own, delimited⟩ := List.forall_mem_cons.mp delimited
    rw [rewrittenFrom]
    cases migration.selectorFor? symbols chunk filling with
    | none =>
      rw [Template.Delimited, List.forall_mem_cons]
      exact ⟨own, ih delimited⟩
    | some selector => exact ih delimited

/-- The filling of a slot that stays is the same, and so is whether the chunk before it ends with the marker. -/
def Keeps (migration : Migration) (slot slot' : Text × Filling) : Prop :=
  slot'.2 = slot.2 ∧ slot'.1.endsWith migration.marker = slot.1.endsWith migration.marker

/-- A selector ends with none of the marker's characters. -/
theorem settled_selector (nested : migration.nesting = [.char '&']) (keyed : migration.table.NewKeyed)
    {entry : Deprecation}
    (mem : entry ∈ migration.table.entries) (front : Text) :
    ∀ c ∈ (front ++ (migration.nesting ++ entry.newToken)).getLast?, c ∉ migration.marker := by
  obtain ⟨before, last, token, isKey⟩ := keyed.last mem
  have whole : front ++ (migration.nesting ++ entry.newToken) = front ++ (migration.nesting ++ before) ++ [last] := by
    simp [token]
  intro c isLast inMarker
  obtain rfl : last = c := by simpa [whole] using isLast
  have either : last = '&' ∨ last = '.' := by simpa [marker, nested] using inMarker
  rcases either with rfl | rfl <;> exact absurd isKey (by decide)

theorem kept_slots (nested : migration.nesting = [.char '&']) (keyed : migration.table.NewKeyed)
    (settled : ∀ c ∈ pending.getLast?, c ∉ migration.marker) :
    List.Forall₂ migration.Keeps
      ((Template.slotsFrom chunk more).filter fun slot => (migration.selectorFor? symbols slot.1 slot.2).isNone)
      (migration.rewrittenFrom symbols pending chunk more).slots := by
  induction more generalizing pending chunk with
  | nil => exact .nil
  | cons pair more ih =>
    obtain ⟨filling, next⟩ := pair
    rw [Template.slotsFrom, rewrittenFrom]
    cases chosen : migration.selectorFor? symbols chunk filling with
    | none =>
      rw [List.filter_cons_of_pos (by simp [chosen])]
      exact .cons ⟨rfl, Text.endsWith_append settled⟩ (ih (by simp))
    | some selector =>
      obtain ⟨kept, rfl, entry, mem, rfl⟩ := selectorFor?_eq_some chosen
      rw [List.filter_cons_of_neg (by simp [chosen])]
      apply ih
      rw [← List.append_assoc]
      exact settled_selector nested keyed mem _

/-- When all slots with a selector are replaced at once, the slots that are left are the others, in their order and
with their fillings, and none of them has a selector now. In a script, where slots are told by what delimits them, this
is what the pass over the slots makes of the template, and it leaves no edit to a second pass. -/
theorem merged_slots (migration : Migration) (nested : migration.nesting = [.char '&'])
    (keyed : migration.table.NewKeyed) (symbols : Symbols) (template : Template) :
    let result := migration.rewritten symbols template
    List.Forall₂ migration.Keeps
        (template.slots.filter fun slot => (migration.selectorFor? symbols slot.1 slot.2).isNone) result.slots ∧
      (∀ slot ∈ result.slots, migration.selectorFor? symbols slot.1 slot.2 = none) ∧
      ∀ imports front back, template.Delimited migration.marker →
        let outline := template.outline imports front back
        Edit.applyAll outline.source (migration.slotEdits outline symbols) =
            .ok (result.outline imports front back).source ∧
          migration.slotEdits (result.outline imports front back) symbols = [] := by
  intro result
  have kept : List.Forall₂ migration.Keeps
      (template.slots.filter fun slot => (migration.selectorFor? symbols slot.1 slot.2).isNone) result.slots :=
    kept_slots nested keyed (by simp)
  have unmatched : ∀ slot ∈ result.slots, migration.selectorFor? symbols slot.1 slot.2 = none := by
    intro slot mem
    obtain ⟨i, bound, rfl⟩ := List.mem_iff_getElem.mp mem
    have bound' := kept.length_eq ▸ bound
    obtain ⟨same, ends⟩ := kept.get bound' bound
    have unchosen := List.of_mem_filter (List.getElem_mem bound')
    rw [List.get_eq_getElem, List.get_eq_getElem] at same ends
    rw [selectorFor?_congr ends, same]
    exact Option.isNone_iff_eq_none.mp unchosen
  refine ⟨kept, unmatched, ?_⟩
  intro imports front back delimited outline
  constructor
  case left =>
    have spliced := splice_templateEdits migration symbols (front ++ [.char '\x60']) template.first ('\x60' :: back)
      template.more
    rw [List.length_append, List.length_singleton] at spliced
    rw [slotEdits_outline delimited, outline_source, outline_source]
    have opening : Text.slice (front ++ [.char '\x60'] ++
        (template.first ++ (Template.textOf template.more ++ .char '\x60' :: back))) 0 (front.length + 1) =
          front ++ [.char '\x60'] := by
      have own := Text.slice_part [] (front ++ [.char '\x60'])
        (template.first ++ (Template.textOf template.more ++ .char '\x60' :: back))
      rwa [List.nil_append, List.length_nil, Nat.zero_add, List.length_append, List.length_singleton] at own
    apply Edit.applyAll_of_splice
    · have whole := Edit.splice_earlier (Nat.zero_le _) spliced
      rwa [opening] at whole
    · exact fun edit mem => filled_templateEdits mem
  case right =>
    have left : result.Delimited migration.marker := rewrittenFrom_delimited delimited
    rw [slotEdits_outline left]
    exact templateEdits_eq_nil unmatched

def filledInfo : SlotMember where
  object := "alertClasses".codePoints
  property := "filledInfo".codePoints
  before := [.char ' ']
  written := "alertClasses.filledInfo".codePoints
  after := []

/-- Five slots: two that are replaced, one right behind them with only a dot between, one with a conditional and one
with a member of another object. -/
def crowded : Template where
  first := "&.".codePoints
  more := [
    (.member filledInfo, "&.".codePoints),
    (.member filledInfo, ".".codePoints),
    (.member filledInfo, " &.".codePoints),
    (.other "on ? a : b".codePoints, "&.".codePoints),
    (.member { filledInfo with object := "styles".codePoints, written := "styles.filledInfo".codePoints },
      "\x7b\x7d".codePoints)]

theorem crowded_delimited : crowded.Delimited alert.marker := by
  have plain : filledInfo.Plain := by decide
  have other : SlotMember.Plain
      { filledInfo with object := "styles".codePoints, written := "styles.filledInfo".codePoints } := plain
  intro pair mem
  simp only [crowded, List.mem_cons, List.not_mem_nil, or_false] at mem
  rcases mem with rfl | rfl | rfl | rfl | rfl
  · exact plain.delimited
  · exact plain.delimited
  · exact plain.delimited
  · trivial
  · exact other.delimited

/-- The two selectors and the chunks around them are one chunk, with nothing in it for a second run. -/
theorem merged_slots_crowded :
    let symbols : Symbols := ⟨[("alertClasses".codePoints, true)]⟩
    let outline := crowded.outline [] [] []
    let result := alert.rewritten symbols crowded
    alert.nesting = [.char '&'] ∧ alert.table.NewKeyed ∧ crowded.Delimited alert.marker ∧
      Edit.applyAll outline.source (alert.slotEdits outline symbols) = .ok (result.outline [] [] []).source ∧
      result.first = "&.MuiAlert-filled.MuiAlert-colorInfo&.MuiAlert-filled.MuiAlert-colorInfo.".codePoints ∧
      result.slots.length = 3 ∧ alert.slotEdits (result.outline [] [] []) symbols = [] := by
  intro symbols outline result
  have keyed := alert_fromKeys.newKeyed
  obtain ⟨-, -, script⟩ := merged_slots alert rfl keyed symbols crowded
  obtain ⟨applied, again⟩ := script [] [] [] crowded_delimited
  exact ⟨rfl, keyed, crowded_delimited, applied, by decide +kernel, by decide +kernel, again⟩

end Migration

end ClassMigration
