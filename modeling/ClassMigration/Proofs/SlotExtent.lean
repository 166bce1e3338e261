import ClassMigration.Proofs.SlotSpan

/-! The extent of a slot. The search for it finds exactly the part of the source that holds the marker, the
slot's opening, the member between blanks and a closing brace; there is at most one such part, and the
comparison with the marker never reaches below the start of the source. -/
namespace ClassMigration

namespace Text

variable {s : Text} {i j : Nat} {c : CodePoint}

theorem exists_getElem?_of_mem_slice (mem : c ∈ s.slice i j) : ∃ k, i ≤ k ∧ k < j ∧ s[k]? = some c := by
  obtain ⟨k, found⟩ := List.mem_iff_getElem?.mp mem
  have short : k < (s.slice i j).length := (List.getElem?_eq_some_iff.mp found).1
  rw [length_slice] at short
  have inside : i + k < j := by omega
  rw [getElem?_slice inside] at found
  exact ⟨i + k, Nat.le_add_right i k, inside, found⟩

theorem blankFrom_iff_slice : s.BlankFrom i j ↔ ∀ c ∈ s.slice i j, isBlank c = true := by
  constructor
  · intro blanks c mem
    obtain ⟨k, start, stop, found⟩ := exists_getElem?_of_mem_slice mem
    exact blanks k c start stop found
  · exact fun blanks k c start stop found => blanks c (mem_slice start stop found)

theorem slice_of_append {front back : Text} (whole : s.slice i j = front ++ back) :
    s.slice i (i + front.length) = front ∧ s.slice (i + front.length) j = back := by
  have room : front.length ≤ j - i := by
    have lengths := congrArg List.length whole
    rw [length_slice, List.length_append] at lengths
    omega
  rw [slice, List.drop_take] at whole
  constructor
  · have first := congrArg (List.take front.length) whole
    rwa [List.take_take, Nat.min_eq_left room, List.take_left, ← Nat.add_sub_cancel_left i front.length,
      ← List.drop_take] at first
  · have second := congrArg (List.drop front.length) whole
    rwa [← List.drop_take, List.drop_drop, List.drop_left] at second

theorem slice_succ (here : s[i]? = some c) : s.slice i (i + 1) = [c] := by
  rw [slice, List.drop_take, Nat.add_sub_cancel_left, List.take_one, List.head?_drop, here]
  rfl

/-- A slice whose start may lie below zero, where it counts from the end of the text. -/
def sliceFrom (text : Text) (start : Int) (stop : Nat) : Text :=
  text.slice (if start < 0 then (text.length + start).toNat else start.toNat) stop

theorem sliceFrom_of_nonneg (start stop : Nat) : s.sliceFrom start stop = s.slice start stop := by
  simp [sliceFrom, show ¬((start : Int) < 0) by omega]

theorem length_sliceFrom_lt {start : Int} {stop : Nat} (below : start < 0) (inside : stop < s.length) :
    ((s.sliceFrom start stop).length : Int) < stop - start := by
  rw [sliceFrom, if_pos below, length_slice]
  omega

end Text

namespace Slot

variable {source marker : Text} {member span span' : Span} {offset i : Nat}

theorem solid_beforeBlanks (positive : 0 < beforeBlanks source offset) :
    ∃ c, source[beforeBlanks source offset - 1]? = some c ∧ isBlank c = false := by
  cases left : (source.take offset).reverse.dropWhile isBlank with
  | nil => simp [beforeBlanks, left] at positive
  | cons c rest =>
    have solid : isBlank c = false := by
      have head := List.head?_dropWhile_not isBlank (source.take offset).reverse
      simpa [left] using head
    refine ⟨c, ?_, solid⟩
    -- read forwards, the text up to the blanks ends with this character
    have whole : source.take offset =
        rest.reverse ++ c :: ((source.take offset).reverse.takeWhile isBlank).reverse := by
      have cut := congrArg List.reverse
        (List.takeWhile_append_dropWhile (p := isBlank) (l := (source.take offset).reverse))
      rw [List.reverse_reverse, List.reverse_append, left] at cut
      simpa using cut.symm
    have length : beforeBlanks source offset = rest.length + 1 := by rw [beforeBlanks, left]; rfl
    have within : rest.length < offset := by
      have within : beforeBlanks source offset ≤ offset := beforeBlanks_le
      omega
    rw [length, Nat.add_sub_cancel, ← List.getElem?_take_of_lt within, whole]
    simp

theorem solid_afterBlanks {c : CodePoint} (here : source[afterBlanks source offset]? = some c) :
    isBlank c = false := by
  have rest : (source.drop offset).dropWhile isBlank = source.drop (afterBlanks source offset) := by
    have cut : List.drop ((source.drop offset).takeWhile isBlank).length
        ((source.drop offset).takeWhile isBlank ++ (source.drop offset).dropWhile isBlank) =
          (source.drop offset).dropWhile isBlank := List.drop_left
    rw [List.takeWhile_append_dropWhile] at cut
    rw [afterBlanks, ← List.drop_drop, cut]
  have head := List.head?_dropWhile_not isBlank (source.drop offset)
  rw [rest, List.head?_drop, here] at head
  simpa using head

/-- The blanks in front of an offset begin behind a character that is none. -/
theorem beforeBlanks_eq (order : i ≤ offset) (blanks : source.BlankFrom i offset) {c : CodePoint} (positive : 0 < i)
    (here : source[i - 1]? = some c) (solid : isBlank c = false) : beforeBlanks source offset = i := by
  rcases Nat.lt_trichotomy (beforeBlanks source offset) i with less | same | more
  · have found : source.BlankFrom (beforeBlanks source offset) offset := blankFrom_beforeBlanks
    have blank := found (i - 1) c (by omega) (by omega) here
    rw [solid] at blank
    cases blank
  · exact same
  · obtain ⟨d, there, noBlank⟩ := solid_beforeBlanks (Nat.zero_lt_of_lt more)
    have within : beforeBlanks source offset ≤ offset := beforeBlanks_le
    have blank := blanks _ d (by omega) (by omega) there
    rw [noBlank] at blank
    cases blank

/-- The blanks from an offset on end at a character that is none. -/
theorem afterBlanks_eq (order : offset ≤ i) (blanks : source.BlankFrom offset i) {c : CodePoint}
    (here : source[i]? = some c) (solid : isBlank c = false) : afterBlanks source offset = i := by
  rcases Nat.lt_trichotomy (afterBlanks source offset) i with less | same | more
  · have inside : afterBlanks source offset < source.length :=
      less.trans (List.getElem?_eq_some_iff.mp here).1
    have there := List.getElem?_eq_getElem inside
    have blank := blanks _ _ (Nat.le_add_right _ _) less there
    rw [solid_afterBlanks there] at blank
    cases blank
  · exact same
  · have blank := blankFrom_afterBlanks i c order more here
    rw [solid] at blank
    cases blank

theorem span?_of_parts {opening closing : Nat} (first : span.start + marker.length + 2 = opening)
    (last : span.stop = closing + 1) (opens : source.slice span.start opening = marker ++ [.char '$', .char '\x7b'])
    (before : opening ≤ member.start) (blanks : source.BlankFrom opening member.start)
    (behind : member.stop ≤ closing) (blanks' : source.BlankFrom member.stop closing)
    (closes : source[closing]? = some (.char '\x7d')) : span? source marker member = some span := by
  have brace := brace_of_opens first opens
  have start : beforeBlanks source member.start = opening :=
    beforeBlanks_eq before blanks (by omega) brace (by decide)
  have stop : afterBlanks source member.stop = closing := afterBlanks_eq behind blanks' closes (by decide)
  have parted : source.slice span.start (opening - 2) = marker ∧
      source.slice (opening - 2) opening = [.char '$', .char '\x7b'] := by
    rw [← Text.slice_append (j := opening - 2) (by omega) (by omega)] at opens
    refine List.append_inj opens ?_
    have long := (List.getElem?_eq_some_iff.mp brace).1
    rw [Text.length_slice]
    omega
  have room : marker.length ≤ opening - 2 := by omega
  have place : opening - 2 - marker.length = span.start := by omega
  rw [span?, start, stop]
  simp [parted, closes, room, place, show 2 ≤ opening by omega, ← last]

/-- The span holds the marker, the slot's opening, the member between blanks and a closing brace. -/
def Holds (source marker : Text) (member span : Span) : Prop :=
  span.stop ≤ source.length ∧ ∃ before after : Text,
    (∀ c ∈ before, isBlank c = true) ∧ (∀ c ∈ after, isBlank c = true) ∧
    span.start + marker.length + 2 + before.length = member.start ∧
    source.slice span.start span.stop =
      marker ++ [.char '$', .char '\x7b'] ++ before ++ source.slice member.start member.stop ++ after ++ [.char '\x7d']

theorem holds_of_span? (order : member.start ≤ member.stop)
    (found : span? source marker member = some span) : Holds source marker member span := by
  obtain ⟨opening, closing, first, last, opens, before, blanks, behind, blanks', closes⟩ := exists_of_span? found
  have long := (List.getElem?_eq_some_iff.mp closes).1
  have brace : source.slice closing span.stop = [.char '\x7d'] := last ▸ Text.slice_succ closes
  refine ⟨by omega, source.slice opening member.start, source.slice member.stop closing,
    Text.blankFrom_iff_slice.mp blanks, Text.blankFrom_iff_slice.mp blanks', ?_, ?_⟩
  · rw [Text.length_slice]
    omega
  · rw [← opens, ← brace, Text.slice_append (by omega) before, Text.slice_append (by omega) order,
      Text.slice_append (by omega) behind, Text.slice_append (by omega) (by omega)]

theorem span?_of_holds (order : member.start ≤ member.stop) (inside : member.stop ≤ source.length)
    (holds : Holds source marker member span) : span? source marker member = some span := by
  obtain ⟨long, before, after, blanks, blanks', place, text⟩ := holds
  have width := congrArg List.length text
  have own := Text.length_slice source member.start member.stop
  rw [Nat.min_eq_left inside] at own
  simp only [Text.length_slice, List.length_append, List.length_cons, List.length_nil] at width
  -- the parts are taken off from the back
  obtain ⟨text, closes⟩ := Text.slice_of_append text
  obtain ⟨text, behind⟩ := Text.slice_of_append text
  obtain ⟨text, -⟩ := Text.slice_of_append text
  obtain ⟨opens, front⟩ := Text.slice_of_append text
  simp only [List.length_append, List.length_cons, List.length_nil, own] at closes behind opens front
  have start : span.start + (marker.length + (0 + 1 + 1)) = span.start + marker.length + 2 := by omega
  have start' : span.start + (marker.length + (0 + 1 + 1) + before.length) = member.start := by omega
  have stop : span.start + (marker.length + (0 + 1 + 1) + before.length + (member.stop - member.start)) =
      member.stop := by omega
  have stop' : span.start + (marker.length + (0 + 1 + 1) + before.length + (member.stop - member.start) +
      after.length) = member.stop + after.length := by omega
  rw [start, start'] at front
  rw [stop, stop'] at behind
  rw [stop'] at closes
  refine span?_of_parts rfl (show span.stop = (member.stop + after.length) + 1 by omega) (start ▸ opens)
    (by omega) (Text.blankFrom_iff_slice.mpr (front.symm ▸ blanks)) (Nat.le_add_right _ _)
    (Text.blankFrom_iff_slice.mpr (behind.symm ▸ blanks')) ?_
  have first := Text.getElem?_slice (s := source) (k := 0) (show member.stop + after.length + 0 < span.stop by omega)
  rw [closes] at first
  exact first.symm

/-- The search with a start that may fall below zero. Its comparison with the marker then counts from the end
of the source. -/
def signedSpan? (source marker : Text) (member : Span) : Option (Int × Nat) :=
  let opening := beforeBlanks source member.start
  let closing := afterBlanks source member.stop
  let start : Int := opening - 2 - marker.length
  if 2 ≤ opening && source.slice (opening - 2) opening == [.char '$', .char '\x7b'] &&
      source[closing]? == some (.char '\x7d') && source.sliceFrom start (opening - 2) == marker then
    some (start, closing + 1)
  else none

/-- No marker is found across the start of the source: what the slice takes there is too short. -/
theorem signedSpan?_eq (source marker : Text) (member : Span) :
    signedSpan? source marker member =
      (span? source marker member).map fun span => ((span.start : Int), span.stop) := by
  rw [signedSpan?, span?]
  generalize beforeBlanks source member.start = opening
  generalize afterBlanks source member.stop = closing
  by_cases two : 2 ≤ opening
  case neg => simp [two]
  by_cases opens : source.slice (opening - 2) opening = [.char '$', .char '\x7b']
  case neg => simp [opens]
  by_cases room : marker.length ≤ opening - 2
  case pos =>
    have start : (opening : Int) - 2 - marker.length = ((opening - 2 - marker.length : Nat) : Int) := by omega
    simp only [start, Text.sliceFrom_of_nonneg, room, decide_true, Bool.and_true]
    split <;> rfl
  case neg =>
    have below : (opening : Int) - 2 - marker.length < 0 := by omega
    have inside : opening - 2 < source.length := by
      have width := congrArg List.length opens
      simp only [Text.length_slice, List.length_cons, List.length_nil] at width
      omega
    have short := Text.length_sliceFrom_lt below inside
    have other : source.sliceFrom ((opening : Int) - 2 - marker.length) (opening - 2) ≠ marker := by
      intro same
      rw [same] at short
      omega
    simp [room, other]

/-- For a member in the source the search finds a span exactly where the span holds the marker, the opening, the
member between blanks and the closing brace. No other span does, and without any there is none to find. The
start found is no offset below zero, however long the marker is. -/
theorem span?_exact (source marker : Text) (order : member.start ≤ member.stop) (inside : member.stop ≤ source.length) :
    (∀ span, span? source marker member = some span ↔ Holds source marker member span) ∧
    (∀ span span', Holds source marker member span → Holds source marker member span' → span = span') ∧
    (span? source marker member = none ↔ ∀ span, ¬Holds source marker member span) ∧
    signedSpan? source marker member =
      (span? source marker member).map fun span => ((span.start : Int), span.stop) := by
  have exact' (span : Span) : span? source marker member = some span ↔ Holds source marker member span :=
    ⟨holds_of_span? order, span?_of_holds order inside⟩
  refine ⟨exact', fun span span' holds holds' => ?_, ?_, signedSpan?_eq source marker member⟩
  · rw [← exact'] at holds holds'
    exact Option.some.inj (holds.symm.trans holds')
  · rw [Option.eq_none_iff_forall_ne_some]
    exact forall_congr' fun span => not_congr (exact' span)

/-- A slot with blanks of several kinds beside its member. -/
def spaced : Text := "\x60&.$\x7b\t\u3000a.b\n \x7d\x60".codePoints

/-- The slot is found with its marker, and with a marker that would begin before the source it is not. -/
theorem span?_exact_spaced :
    let member : Span := ⟨7, 10⟩
    member.start ≤ member.stop ∧ member.stop ≤ spaced.length ∧
      Holds spaced "&.".codePoints member ⟨1, 13⟩ ∧
      (∀ span, Holds spaced "&.".codePoints member span → span = ⟨1, 13⟩) ∧
      (∀ span, ¬Holds spaced "......&.".codePoints member span) ∧
      signedSpan? spaced "......&.".codePoints member = none := by
  intro member
  have order : member.start ≤ member.stop := by decide
  have inside : member.stop ≤ spaced.length := by decide
  have found : span? spaced "&.".codePoints member = some ⟨1, 13⟩ := by decide +kernel
  have missed : span? spaced "......&.".codePoints member = none := by decide +kernel
  obtain ⟨exactly, unique, -, -⟩ := span?_exact spaced "&.".codePoints order inside
  obtain ⟨-, -, none, signed⟩ := span?_exact spaced "......&.".codePoints order inside
  have holds := (exactly _).mp found
  exact ⟨order, inside, holds, fun span other => unique _ _ other holds, none.mp missed, by rw [signed, missed]; rfl⟩

end Slot

end ClassMigration
