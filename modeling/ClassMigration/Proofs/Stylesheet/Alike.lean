import ClassMigration.Stylesheet.Scanner

/-! Texts that agree up to a dot and the letter behind it. What a scanner reads before such a dot does not
depend on what follows the letter: no class of characters that it collects holds the dot, and no number
goes on with a dot before a letter. -/
namespace ClassMigration.Stylesheet

inductive Alike : Text → Text → Prop
  | same (t : Text) : Alike t t
  | dot {c : CodePoint} (letter : c.isAlpha) (s s' : Text) : Alike ('.' :: c :: s) ('.' :: c :: s')
  | cons (c : CodePoint) {t t' : Text} : Alike t t' → Alike (c :: t) (c :: t')

namespace Alike

theorem append (w : Text) {t t' : Text} (h : Alike t t') : Alike (w ++ t) (w ++ t') := by
  induction w with
  | nil => exact h
  | cons c w ih => exact cons c ih

theorem head_eq {t t' : Text} (h : Alike t t') : t.head? = t'.head? := by cases h <;> rfl

theorem symm {t t' : Text} (h : Alike t t') : Alike t' t := by
  induction h with
  | same t => exact same t
  | dot letter s s' => exact dot letter s' s
  | cons c _ ih => exact cons c ih

theorem eq_nil {t' : Text} (h : Alike [] t') : t' = [] := by cases h; rfl

/-- Beyond a common first character the texts are alike again, or a dot stands before the letter. -/
theorem cons_cases {c : CodePoint} {t t' : Text} (h : Alike (c :: t) t') :
    ∃ s', t' = c :: s' ∧ (Alike t s' ∨ (c = '.' ∧ ∃ d : CodePoint, d.isAlpha ∧ t.head? = some d ∧
      s'.head? = some d)) := by
  cases h with
  | same => exact ⟨t, rfl, .inl (same t)⟩
  | dot letter s s' => exact ⟨_, rfl, .inr ⟨rfl, _, letter, rfl, rfl⟩⟩
  | cons _ h => exact ⟨_, rfl, .inl h⟩

theorem tail {c : CodePoint} {t t' : Text} (h : Alike (c :: t) t') (other : c ≠ '.') :
    ∃ s', t' = c :: s' ∧ Alike t s' := by
  obtain ⟨s', rfl, next | ⟨dot, _⟩⟩ := h.cons_cases
  · exact ⟨s', rfl, next⟩
  · exact absurd dot other

variable {p : CodePoint → Bool}

theorem takeWhile_eq (dot : p '.' = false) {t t' : Text} (h : Alike t t') :
    t.takeWhile p = t'.takeWhile p := by
  induction h with
  | same => rfl
  | dot => simp [dot]
  | cons c _ ih => simp [List.takeWhile_cons, ih]

theorem dropWhile (dot : p '.' = false) {t t' : Text} (h : Alike t t') :
    Alike (t.dropWhile p) (t'.dropWhile p) := by
  induction h with
  | same t => exact same _
  | dot letter s s' => simpa [List.dropWhile_cons, dot] using Alike.dot letter s s'
  | cons c h ih =>
    by_cases inside : p c
    · simpa [List.dropWhile_cons, inside] using ih
    · simpa [List.dropWhile_cons, inside] using cons c h

theorem take_takeWhile_eq (dot : p '.' = false) (n : Nat) {t t' : Text} (h : Alike t t') :
    (t.take n).takeWhile p = (t'.take n).takeWhile p := by
  induction n generalizing t t' with
  | zero => simp
  | succ n ih =>
    cases h with
    | same => rfl
    | dot => simp [dot]
    | cons c h => simp [List.takeWhile_cons, ih h]

theorem drop_take_takeWhile (dot : p '.' = false) (n : Nat) {t t' : Text} (h : Alike t t') :
    Alike (t.drop ((t.take n).takeWhile p).length) (t'.drop ((t.take n).takeWhile p).length) := by
  induction n generalizing t t' with
  | zero => simpa using h
  | succ n ih =>
    cases h with
    | same t => exact same _
    | dot letter s s' => simpa [List.takeWhile_cons, dot] using Alike.dot letter s s'
    | cons c h =>
      by_cases inside : p c
      · simpa [List.takeWhile_cons, inside] using ih h
      · simpa [List.takeWhile_cons, inside] using cons c h

theorem drop_takeWhile (dot : p '.' = false) {t t' : Text} (h : Alike t t') :
    Alike (t.drop (t.takeWhile p).length) (t'.drop (t.takeWhile p).length) := by
  induction h with
  | same t => exact same _
  | dot letter s s' => simpa [List.takeWhile_cons, dot] using Alike.dot letter s s'
  | cons c h ih =>
    by_cases inside : p c
    · simpa [List.takeWhile_cons, inside] using ih
    · simpa [List.takeWhile_cons, inside] using cons c h

theorem startsWith_eq {opening : Text} (free : .char '.' ∉ opening) {t t' : Text} (h : Alike t t') :
    Text.startsWith t opening = Text.startsWith t' opening := by
  induction h generalizing opening with
  | same => rfl
  | dot letter s s' =>
    cases opening with
    | nil => simp [Text.startsWith]
    | cons o opening =>
      have other : (o == '.') = false := by
        simp only [List.mem_cons, not_or] at free; simp [Ne.symm free.1]
      simp [Text.startsWith, List.isPrefixOf, other]
  | cons c h ih =>
    cases opening with
    | nil => simp [Text.startsWith]
    | cons o opening =>
      have rest := @ih opening (by simp at free; exact free.2)
      simp only [Text.startsWith] at rest
      simp [Text.startsWith, List.isPrefixOf, rest]

end Alike

namespace Scanner

theorem beginsEscape_alike {t t' : Text} (h : Alike t t') : beginsEscape t = beginsEscape t' := by
  cases h with
  | same => rfl
  | dot => rfl
  | cons c h =>
    have next := h.head_eq
    by_cases slash : c = '\\'
    · subst slash
      rename_i t t'
      cases t <;> cases t' <;> simp at next
      · rfl
      · subst next
        rename_i d _ _
        by_cases newline : d = '\n'
        · simp [newline, beginsEscape]
        · simp [beginsEscape, newline]
    · simp [beginsEscape, slash]

theorem beginsIdent_alike {t t' : Text} (h : Alike t t') : beginsIdent t = beginsIdent t' := by
  cases h with
  | same => rfl
  | dot => rfl
  | cons c h =>
    by_cases dash : c = '-'
    · subst dash
      have next := h.head_eq
      have escape := beginsEscape_alike h
      rename_i t t'
      cases t <;> cases t' <;> simp at next
      · rfl
      · subst next; simp [beginsIdent, escape]
    · have escape := beginsEscape_alike (h.cons c)
      simp [beginsIdent, escape]

theorem escaped_alike {t t' : Text} (h : Alike t t') : escaped t = escaped t' := by
  have digits := h.take_takeWhile_eq (p := Text.isHexDigit) (by decide) 6
  have rest := h.drop_take_takeWhile (p := Text.isHexDigit) (by decide) 6
  have next := rest.head_eq
  unfold escaped
  simp only [digits] at next ⊢
  split
  · have first := h.head_eq
    cases t <;> cases t' <;> simp at first
    · rfl
    · subst first; rfl
  · revert next
    generalize t.drop _ = u, t'.drop _ = u'
    intro next
    cases u <;> cases u' <;> simp at next
    · rfl
    · subst next; rfl

end Scanner

end ClassMigration.Stylesheet
