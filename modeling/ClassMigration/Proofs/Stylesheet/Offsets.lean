import ClassMigration.Stylesheet.Position

/-! Positions lead back to the source. A prefix of the normalized text comes from a prefix of the
source, and the line starts of the source give the length of that prefix at the position after it. -/
namespace ClassMigration.Stylesheet

/-- Line ends are normalized one by one, unless a cut falls between the two characters of one. -/
theorem normalized_append (s t : Text)
    (apart : ¬(s.getLast? = some (.char '\r') ∧ t.head? = some (.char '\n'))) :
    normalized (s ++ t) = normalized s ++ normalized t := by
  fun_induction normalized s with
  | case1 => rfl
  | case2 rest ih =>
    have shorter : ¬(rest.getLast? = some (.char '\r') ∧ t.head? = some (.char '\n')) := by
      rintro ⟨last, head⟩
      exact apart ⟨by simp [List.getLast?_cons, last], head⟩
    simp [normalized, ih shorter]
  | case3 c rest notPair ih =>
    have shorter : ¬(rest.getLast? = some (.char '\r') ∧ t.head? = some (.char '\n')) := by
      rintro ⟨last, head⟩
      exact apart ⟨by simp [List.getLast?_cons, last], head⟩
    have unpaired : ∀ more, c = .char '\r' → rest ++ t = .char '\n' :: more → False := by
      intro more carriage same
      cases rest with
      | nil => exact apart ⟨by simp [carriage], by simp at same; simp [same]⟩
      | cons d rest =>
        simp only [List.cons_append, List.cons.injEq] at same
        exact notPair rest carriage (by rw [same.1])
    rw [List.cons_append, normalized.eq_3 c (rest ++ t) unpaired, ih shorter]
    rfl

theorem length_normalized_le (s : Text) : (normalized s).length ≤ s.length := by
  fun_induction normalized s <;> simp <;> omega

theorem Position.step_newline (p : Position) : p.step '\n' = ⟨p.line + 1, 1⟩ := by simp [step]

theorem Position.step_plain (p : Position) {c : CodePoint} (plain : c ≠ '\n') :
    p.step c = ⟨p.line, p.column + 1⟩ := by
  simp [step, plain]

theorem Position.line_after (p : Position) (s : Text) : p.line ≤ (p.after s).line := by
  induction s generalizing p with
  | nil => simp
  | cons c rest ih =>
    have first : p.line ≤ (p.step c).line := by unfold Position.step; split <;> simp
    exact Nat.le_trans first (ih _)

theorem Position.column_after (p : Position) (s : Text) (same : (p.after s).line = p.line) :
    (p.after s).column = p.column + s.length := by
  induction s generalizing p with
  | nil => simp
  | cons c rest ih =>
    rw [Position.after_cons] at same ⊢
    by_cases newline : c = '\n'
    · have later := Position.line_after (p.step c) rest
      rw [same, newline, Position.step_newline] at later
      exact absurd later (Nat.not_succ_le_self p.line)
    · rw [Position.step_plain p newline] at same ⊢
      rw [ih _ same, List.length_cons, Nat.add_right_comm, Nat.add_assoc]

theorem Position.after_ne (p : Position) {s : Text} (some : s ≠ []) : p.after s ≠ p := by
  intro same
  have columns := p.column_after s (by rw [same])
  rw [same] at columns
  exact some (List.length_eq_zero_iff.mp (by omega))

theorem Position.column_pos (p : Position) (s : Text) (pos : 0 < p.column) :
    0 < (p.after s).column := by
  induction s generalizing p with
  | nil => exact pos
  | cons c rest ih =>
    refine ih (p.step c) ?_
    unfold Position.step
    split <;> simp

/-- Behind a line feed the line starts are looked up from the next one on. -/
theorem Position.lookup_newline (p : Position) (a : Text) (start : Nat) (later : List Nat) :
    (start :: later)[(Position.after ⟨p.line + 1, 1⟩ a).line - p.line]? =
      later[(Position.after ⟨p.line + 1, 1⟩ a).line - (p.line + 1)]? := by
  have lower : p.line + 1 ≤ (Position.after ⟨p.line + 1, 1⟩ a).line :=
    Position.line_after ⟨p.line + 1, 1⟩ a
  have index : (Position.after ⟨p.line + 1, 1⟩ a).line - p.line =
      (Position.after ⟨p.line + 1, 1⟩ a).line - (p.line + 1) + 1 := by omega
  rw [index, List.getElem?_cons_succ]

/-- A character that does not begin a pair is normalized alone in every prefix. -/
theorem normalized_take_succ {c : CodePoint} {more : Text}
    (notPair : ∀ rest, c = .char '\r' → more = .char '\n' :: rest → False) (k : Nat) :
    normalized ((c :: more).take (k + 1)) =
      (if c == .char '\r' || c == .char '\x0c' then .char '\n' else if c == .char '\x00' then .char '\uFFFD' else c) ::
        normalized (more.take k) := by
  have unpaired : ∀ tail, c = .char '\r' → more.take k = .char '\n' :: tail → False := by
    intro tail carriage same
    have whole := List.take_append_drop k more
    rw [same] at whole
    exact notPair _ carriage whole.symm
  rw [List.take_succ_cons, normalized.eq_3 c _ unpaired]

/-- The walk over the source beside the walk over the normalized text: `start` is where the current line
begins, and `offset` is the place of the column in it. -/
theorem lineEnds_lookup (s a rest : Text) (start offset : Nat) (p : Position)
    (cut : normalized s = a ++ rest) (place : offset + 1 = start + p.column) :
    ∃ k ≤ s.length, normalized (s.take k) = a ∧ normalized (s.drop k) = rest ∧
      ∃ begun, (start :: lineEnds offset s)[(p.after a).line - p.line]? = some begun ∧
        begun + (p.after a).column = offset + k + 1 := by
  fun_induction normalized s generalizing a start offset p with
  | case1 =>
    obtain ⟨rfl, rfl⟩ := List.append_eq_nil_iff.mp cut.symm
    exact ⟨0, by simp, rfl, rfl, start, by simp, by simpa using place.symm⟩
  | case2 more ih =>
    cases a with
    | nil => exact ⟨0, by simp, rfl, by simpa [normalized] using cut, start, by simp, by simp; omega⟩
    | cons d a =>
      simp only [List.cons_append, List.cons.injEq] at cut
      obtain ⟨rfl, cut⟩ := cut
      obtain ⟨k, bound, before, after, begun, found, sum⟩ :=
        ih a (offset + 2) (offset + 2) ⟨p.line + 1, 1⟩ cut rfl
      refine ⟨k + 2, by simp; omega, by simp [normalized, before], by simpa using after, begun, ?_, ?_⟩
      · rw [Position.after_cons, Position.step_newline, lineEnds, Position.lookup_newline, found]
      · rw [Position.after_cons, Position.step_newline, sum]
        omega
  | case3 c more notPair ih =>
    cases a with
    | nil =>
      refine ⟨0, by simp, rfl, ?_, start, by simp, by simp; omega⟩
      simpa [normalized.eq_3 c more notPair] using cut
    | cons d a =>
      simp only [List.cons_append, List.cons.injEq] at cut
      obtain ⟨head, cut⟩ := cut
      by_cases ends : c = '\r' ∨ c = '\n' ∨ c = '\x0c'
      · obtain rfl : d = '\n' := by rcases ends with rfl | rfl | rfl <;> simpa using head.symm
        obtain ⟨k, bound, before, after, begun, found, sum⟩ :=
          ih a (offset + 1) (offset + 1) ⟨p.line + 1, 1⟩ cut rfl
        have line : lineEnds offset (c :: more) = (offset + 1) :: lineEnds (offset + 1) more := by
          rw [lineEnds.eq_3 offset c more notPair]
          rcases ends with rfl | rfl | rfl <;> simp
        refine ⟨k + 1, by simp; omega, ?_, by simpa using after, begun, ?_, ?_⟩
        · rw [normalized_take_succ notPair, before, head]
        · rw [Position.after_cons, Position.step_newline, line, Position.lookup_newline, found]
        · rw [Position.after_cons, Position.step_newline, sum]
          omega
      · simp only [not_or] at ends
        have plain : d ≠ '\n' := by
          rw [← head]; simp [ends.1, ends.2.2]; split <;> simp [ends.2.1]
        obtain ⟨k, bound, before, after, begun, found, sum⟩ :=
          ih a start (offset + 1) ⟨p.line, p.column + 1⟩ cut (by simp; omega)
        have line : lineEnds offset (c :: more) = lineEnds (offset + 1) more := by
          rw [lineEnds.eq_3 offset c more notPair]
          simp [ends]
        refine ⟨k + 1, by simp; omega, ?_, by simpa using after, begun, ?_, ?_⟩
        · rw [normalized_take_succ notPair, before, head]
        · rw [Position.after_cons, Position.step_plain p plain, line, found]
        · rw [Position.after_cons, Position.step_plain p plain, sum]
          omega

theorem LineIndex.offset?_after (source a rest : Text) (cut : normalized source = a ++ rest) :
    ∃ k ≤ source.length, (LineIndex.ofSource source).offset? (Position.first.after a) = some k ∧
      normalized (source.take k) = a ∧ normalized (source.drop k) = rest := by
  obtain ⟨k, bound, before, after, begun, found, sum⟩ :=
    lineEnds_lookup source a rest 0 0 Position.first cut rfl
  refine ⟨k, bound, ?_, before, after⟩
  have column := Position.first.column_pos a Nat.one_pos
  have line : (Position.first.after a).line - Position.first.line =
    (Position.first.after a).line - 1 := rfl
  rw [line] at found
  simp only [LineIndex.offset?, LineIndex.ofSource, found, Option.map_some, Option.some.injEq]
  omega

/-- The offset of the position after a prefix of the normalized text cuts the source where the prefix
cuts the normalized text. -/
theorem LineIndex.offset_after (source a rest : Text) (cut : normalized source = a ++ rest) :
    let k := (LineIndex.ofSource source).offset (Position.first.after a)
    k ≤ source.length ∧ normalized (source.take k) = a ∧ normalized (source.drop k) = rest := by
  obtain ⟨k, bound, found, before, after⟩ := offset?_after source a rest cut
  simp only [LineIndex.offset, found, Option.getD_some]
  exact ⟨bound, before, after⟩

theorem length_normalized_append (s t : Text) : (normalized s).length ≤ (normalized (s ++ t)).length := by
  fun_induction normalized s with
  | case1 => simp
  | case2 rest ih => simpa [normalized] using ih
  | case3 c rest notPair ih =>
    by_cases pair : ∃ more, c = .char '\r' ∧ rest ++ t = .char '\n' :: more
    · obtain ⟨more, rfl, same⟩ := pair
      obtain rfl : rest = [] := by
        cases rest with
        | nil => rfl
        | cons d rest => exact absurd (List.cons.inj same).1 fun head => notPair rest rfl (by rw [head])
      rw [List.nil_append] at same
      simp [same, normalized]
    · rw [List.cons_append, normalized.eq_3 c (rest ++ t) fun more first same => pair ⟨more, first, same⟩]
      simpa using ih

/-- A text is normalized in two parts only where no line end is parted. -/
theorem apart_of_normalized_append {s t : Text} (cut : normalized (s ++ t) = normalized s ++ normalized t) :
    ¬(s.getLast? = some (.char '\r') ∧ t.head? = some (.char '\n')) := by
  rintro ⟨last, head⟩
  obtain ⟨s, rfl⟩ := List.getLast?_eq_some_iff.mp last
  obtain ⟨t, rfl⟩ := List.head?_eq_some_iff.mp head
  rw [List.append_assoc, normalized_append s _ (by simp), normalized_append s _ (by simp)] at cut
  have length := congrArg List.length cut
  simp [normalized] at length

theorem Position.after_line (p : Position) {w : Text} (line : .char '\n' ∉ w) :
    p.after w = ⟨p.line, p.column + w.length⟩ := by
  induction w generalizing p with
  | nil => rfl
  | cons c w ih =>
    simp only [List.mem_cons, not_or] at line
    rw [Position.after_cons, Position.step_plain p (Ne.symm line.1), ih _ line.2, List.length_cons,
      Nat.add_assoc, Nat.add_comm 1]

namespace LineIndex

variable {source a w rest : Text}

theorem apart (cut : normalized source = a ++ rest) :
    let k := (ofSource source).offset (Position.first.after a)
    ¬((source.take k).getLast? = some (.char '\r') ∧ (source.drop k).head? = some (.char '\n')) := by
  obtain ⟨-, before, after⟩ := offset_after source a rest cut
  refine apart_of_normalized_append ?_
  rw [List.take_append_drop, before, after, cut]

theorem offset_le (cut : normalized source = a ++ (w ++ rest)) :
    (ofSource source).offset (Position.first.after a) ≤
      (ofSource source).offset (Position.first.after (a ++ w)) := by
  by_cases empty : w = []
  · exact Nat.le_of_eq (by rw [empty, List.append_nil])
  obtain ⟨-, before, -⟩ := offset_after source a (w ++ rest) cut
  obtain ⟨-, before', -⟩ := offset_after source (a ++ w) rest (by rw [cut, List.append_assoc])
  generalize (ofSource source).offset (Position.first.after a) = i at *
  generalize (ofSource source).offset (Position.first.after (a ++ w)) = j at *
  refine Nat.le_of_not_lt fun later => empty ?_
  have shorter := length_normalized_append (source.take j) (source.slice j i)
  have whole : source.take j ++ source.slice j i = source.take i := by
    simpa [Text.slice] using Text.slice_append (Nat.zero_le j) (Nat.le_of_lt later) source
  rw [whole, before, before', List.length_append] at shorter
  exact List.length_eq_zero_iff.mp (by omega)

theorem normalized_slice (cut : normalized source = a ++ (w ++ rest)) :
    normalized (source.slice ((ofSource source).offset (Position.first.after a))
      ((ofSource source).offset (Position.first.after (a ++ w)))) = w := by
  have order := offset_le cut
  have apart := apart cut
  obtain ⟨-, before, -⟩ := offset_after source a (w ++ rest) cut
  obtain ⟨-, before', -⟩ := offset_after source (a ++ w) rest (by rw [cut, List.append_assoc])
  generalize (ofSource source).offset (Position.first.after a) = i at *
  generalize (ofSource source).offset (Position.first.after (a ++ w)) = j at *
  have whole : source.take i ++ source.slice i j = source.take j := by
    simpa [Text.slice] using Text.slice_append (Nat.zero_le i) order source
  rw [← whole, normalized_append, before] at before'
  · exact List.append_cancel_left before'
  · rintro ⟨last, head⟩
    refine apart ⟨last, ?_⟩
    obtain ⟨t, begins⟩ := List.head?_eq_some_iff.mp head
    rw [← Text.slice_append_drop order source, begins]
    rfl

theorem offset_append (cut : normalized source = a ++ (w ++ rest)) (line : .char '\n' ∉ w) :
    (ofSource source).offset (Position.first.after (a ++ w)) =
      (ofSource source).offset (Position.first.after a) + w.length := by
  obtain ⟨k, -, -, -, begun, found, sum⟩ :=
    lineEnds_lookup source a (w ++ rest) 0 0 Position.first cut rfl
  have column := Position.first.column_pos a Nat.one_pos
  have line' : (Position.first.after a).line - Position.first.line =
    (Position.first.after a).line - 1 := rfl
  rw [line'] at found
  rw [Position.after_append, Position.after_line _ line]
  simp only [offset, offset?, ofSource, found, Option.map_some, Option.getD_some]
  omega

end LineIndex

/-- The characters that normalizing neither changes nor makes. -/
def Untouched (c : CodePoint) : Prop :=
  c ≠ '\n' ∧ c ≠ '\r' ∧ c ≠ '\x0c' ∧ c ≠ '\x00' ∧ c ≠ '\uFFFD'

theorem untouched_dot : Untouched '.' := ⟨by decide, by decide, by decide, by decide, by decide⟩

theorem normalized_cons_of_untouched {c : CodePoint} (h : Untouched c) (rest : Text) :
    normalized (c :: rest) = c :: normalized rest := by
  obtain ⟨_, carriage, feed, null, _⟩ := h
  rw [normalized.eq_3 c rest (fun _ same _ => carriage same)]
  simp [carriage, feed, null]

theorem normalized_append_of_untouched {w : Text} (h : ∀ c ∈ w, Untouched c) (rest : Text) :
    normalized (w ++ rest) = w ++ normalized rest := by
  induction w with
  | nil => rfl
  | cons c w ih =>
    rw [List.cons_append, normalized_cons_of_untouched (h c List.mem_cons_self),
      ih fun d mem => h d (List.mem_cons_of_mem c mem), List.cons_append]

/-- Untouched text opens the normalized text exactly where it opens the source. -/
theorem untouched_isPrefix_normalized {w : Text} (h : ∀ c ∈ w, Untouched c) (s : Text) :
    w <+: normalized s ↔ w <+: s := by
  constructor
  · induction w generalizing s with
    | nil => simp
    | cons c w ih =>
      have first := h c List.mem_cons_self
      have others : ∀ d ∈ w, Untouched d := fun d mem => h d (List.mem_cons_of_mem c mem)
      fun_cases normalized s with
      | case1 => simp
      | case2 rest => intro opens; exact absurd (List.cons_prefix_cons.mp opens).1 first.1
      | case3 d rest notPair =>
        intro opens
        obtain ⟨same, opens⟩ := List.cons_prefix_cons.mp opens
        have kept : c = d := by
          obtain ⟨feed, _, _, _, replacement⟩ := first
          split at same
          · exact absurd same feed
          · split at same
            · exact absurd same replacement
            · exact same
        exact List.cons_prefix_cons.mpr ⟨kept, ih others rest opens⟩
  · rintro ⟨rest, rfl⟩
    exact ⟨normalized rest, (normalized_append_of_untouched h rest).symm⟩

end ClassMigration.Stylesheet
