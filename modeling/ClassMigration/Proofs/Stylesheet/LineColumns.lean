import Mathlib.Data.List.Induction
import ClassMigration.Proofs.Stylesheet.Offsets

/-! Lines and columns as they are counted in the normalized text. Its line feeds come from the line ends of
the source one by one, whatever line ends are mixed in it, so the counts lead back to the place in the
source. -/
namespace ClassMigration.Stylesheet

/-- The source with its null characters replaced, then its pairs of carriage return and line feed, and then
the carriage returns and form feeds that are left. -/
def replacedInTurn (source : Text) : Text :=
  (((source.replace [.char '\x00'] [.char '\uFFFD']).replace [.char '\r', .char '\n'] [.char '\n']).replace
    [.char '\r'] [.char '\n']).replace [.char '\x0c'] [.char '\n']

theorem replace_pair_cons (rest : Text) :
    Text.replace (.char '\r' :: .char '\n' :: rest) [.char '\r', .char '\n'] [.char '\n'] =
      .char '\n' :: rest.replace [.char '\r', .char '\n'] [.char '\n'] := by
  simp [Text.replace, Text.replaceFrom, Text.startsWith, List.isPrefixOf]

theorem replace_pair_of_not {c : CodePoint} {rest : Text} (alone : ¬(c = '\r' ∧ rest.head? = some (.char '\n'))) :
    Text.replace (c :: rest) [.char '\r', .char '\n'] [.char '\n'] =
      c :: rest.replace [.char '\r', .char '\n'] [.char '\n'] := by
  have other : ¬Text.startsWith (c :: rest) [.char '\r', .char '\n'] = true := by
    rw [Text.startsWith_iff, List.cons_prefix_cons]
    rintro ⟨rfl, more, same⟩
    apply alone
    exact ⟨rfl, by rw [← same]; rfl⟩
  change Text.replaceFrom _ _ 0 _ = c :: Text.replaceFrom _ _ 0 _
  rw [Text.replaceFrom, if_neg other]

/-- One pass over the source does what the replacements do in turn. -/
theorem normalized_eq_replacedInTurn (source : Text) : normalized source = replacedInTurn source := by
  simp only [replacedInTurn, Text.replace_char]
  fun_induction normalized source with
  | case1 => rfl
  | case2 rest ih =>
    have pair := replace_pair_cons (rest.map fun d : CodePoint => if d = '\x00' then .char '\uFFFD' else d)
    simp [pair, ih]
  | case3 c rest notPair ih =>
    -- a replaced null character neither begins a pair nor ends one
    have alone : ¬((if c = '\x00' then .char '\uFFFD' else c) = '\r' ∧
        (rest.map fun d : CodePoint => if d = '\x00' then .char '\uFFFD' else d).head? = some (.char '\n')) := by
      rintro ⟨carriage, feed⟩
      cases rest with
      | nil => cases feed
      | cons d rest =>
        apply notPair rest
        · split at carriage
          · exact absurd carriage (by decide)
          · exact carriage
        · simp only [List.map_cons, List.head?_cons, Option.some.injEq] at feed
          split at feed
          · exact absurd feed (by decide)
          · rw [feed]
    rw [List.map_cons, replace_pair_of_not alone, List.map_cons, List.map_cons, ← ih]
    congr 1
    by_cases null : c = '\x00'
    · subst null
      rfl
    by_cases carriage : c = '\r'
    · subst carriage
      rfl
    simp [null, carriage]

/-- The position after some text: one more line than it has line feeds, and one more column than there are
characters behind the last of them. -/
theorem Position.first_after (passed : Text) :
    first.after passed = ⟨passed.count (.char '\n') + 1, (passed.reverse.takeWhile (· != .char '\n')).length + 1⟩ := by
  induction passed using List.reverseRecOn with
  | nil => rfl
  | append_singleton passed c ih =>
    rw [after_append, ih, after_cons, after_nil, step, List.count_append, List.reverse_append,
      List.reverse_singleton, List.singleton_append, List.takeWhile_cons]
    by_cases feed : c = '\n'
    · subst feed
      simp
    · simp [feed]

/-- The text is normalized as by replacements in turn, and the line and column of each of its places, counted
from the line feeds before, have an offset in the source. What the source has before that offset is
normalized to the text before the place, and what is behind it to the text behind. -/
theorem LineIndex.offset?_counted (source : Text) :
    normalized source = replacedInTurn source ∧
    ∀ p ≤ (normalized source).length,
      let before := (normalized source).take p
      ∃ r ≤ source.length,
        (ofSource source).offset? ⟨before.count (.char '\n') + 1,
          (before.reverse.takeWhile (· != .char '\n')).length + 1⟩ = some r ∧
        normalized (source.take r) = before ∧ normalized (source.drop r) = (normalized source).drop p := by
  refine ⟨normalized_eq_replacedInTurn source, ?_⟩
  intro p _ before
  have cut : normalized source = before ++ (normalized source).drop p :=
    (List.take_append_drop p (normalized source)).symm
  obtain ⟨r, bound, found, front, back⟩ := offset?_after source before _ cut
  rw [Position.first_after] at found
  exact ⟨r, bound, found, front, back⟩

/-- A carriage return, a pair and a form feed stand between two letters: four lines, of which the last begins
at the last letter. -/
theorem offset?_counted_mixed :
    let source := "a\r\r\n\x0cb".codePoints
    normalized source = "a\n\n\nb".codePoints ∧ 4 ≤ (normalized source).length ∧
      ∃ r ≤ source.length, (LineIndex.ofSource source).offset? ⟨4, 1⟩ = some r ∧
        normalized (source.take r) = "a\n\n\n".codePoints ∧ normalized (source.drop r) = "b".codePoints := by
  intro source
  have text : normalized source = "a\n\n\nb".codePoints := by decide
  have inside : 4 ≤ (normalized source).length := by rw [text]; decide
  have place := (LineIndex.offset?_counted source).2 4 inside
  rw [text] at place
  exact ⟨text, inside, place⟩

end ClassMigration.Stylesheet
