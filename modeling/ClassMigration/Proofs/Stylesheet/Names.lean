import ClassMigration.Proofs.Stylesheet.Offsets
import ClassMigration.Proofs.Stylesheet.Tokens
import ClassMigration.Stylesheet.Serialize

/-! Dots and names in a text. A dot before a letter is a token of its own, and a plain name is read as
itself exactly where nothing behind it goes on with it. -/
namespace ClassMigration.Stylesheet

/-- A name of letters, digits, hyphens and underscores that a letter begins and that has more than that
letter. -/
structure Plain (name : Text) : Prop where
  begins : ∃ c d rest, name = c :: d :: rest ∧ c.isAlpha
  chars : ∀ c ∈ name, c.isAlphanum ∨ c = '-' ∨ c = '_'

/-- What stands here ends a name before it, and opens no function with it. -/
structure Bounds (t : Text) : Prop where
  char : ∀ c, t.head? = some c → Scanner.isNameChar c = false ∧ c ≠ '('
  escape : Scanner.beginsEscape t = false

theorem Bounds.dot (t : Text) : Bounds ('.' :: t) where
  char c head := by obtain rfl : '.' = c := by simpa using head
                    decide
  escape := rfl

theorem Bounds.alike {t t' : Text} (bounds : Bounds t) (h : Alike t t') : Bounds t' where
  char c head := bounds.char c (h.head_eq.trans head)
  escape := (Scanner.beginsEscape_alike h).symm.trans bounds.escape

section

variable {c : CodePoint} (char : c.isAlphanum ∨ c = '-' ∨ c = '_')
include char

theorem isNameChar_of_char : Scanner.isNameChar c = true := by
  rcases char with letter | rfl | rfl
  · rcases Bool.or_eq_true_iff.mp (c.isAlphanum_eq ▸ letter) with letter | digit
    · simp [Scanner.isNameChar, Scanner.isLetter, letter]
    · simp [Scanner.isNameChar, digit]
  · rfl
  · rfl

theorem untouched_of_char : Untouched c := by
  refine ⟨?_, ?_, ?_, ?_, ?_⟩ <;> (rintro rfl; revert char; decide)

end

namespace Plain

variable {n : Text}

theorem isNameChar (plain : Plain n) : ∀ c ∈ n, Scanner.isNameChar c = true :=
  fun c mem => isNameChar_of_char (plain.chars c mem)

theorem untouched (plain : Plain n) : ∀ c ∈ n, Untouched c := fun c mem => untouched_of_char (plain.chars c mem)

theorem no_dot (plain : Plain n) : .char '.' ∉ n := by
  intro mem
  have char := plain.chars '.' mem
  revert char; decide

theorem ident_eq (plain : Plain n) : Serialize.ident n = n := by
  have whole : ∀ t : Text, (∀ c ∈ t, Scanner.isNameChar c = true) → Serialize.name t = t := by
    intro t chars
    induction t with
    | nil => rfl
    | cons c t ih =>
      have rest := ih fun d mem => chars d (List.mem_cons_of_mem c mem)
      unfold Serialize.name at rest ⊢
      rw [List.flatMap_cons, rest, Serialize.nameChar, if_pos (chars c List.mem_cons_self)]
      rfl
  obtain ⟨c, d, rest, rfl, letter⟩ := plain.begins
  have dash : c ≠ '-' := by rintro rfl; revert letter; decide
  have others := whole (d :: rest) fun e mem => plain.isNameChar e (List.mem_cons_of_mem c mem)
  rw [Serialize.ident.eq_5 c (d :: rest) (by simp [dash]) (by simp [dash]) (by simp [dash]), others,
    Serialize.firstChar, if_pos (by simp [Scanner.isLetter, letter])]
  rfl

end Plain

namespace Scanner

theorem read_dot {c : CodePoint} (letter : c.isAlpha) (fuel : Nat) (rest : Text) :
    read fuel ('.' :: c :: rest) = one (.mark [.char '.']) 1 := by
  have digit := not_digit_of_letter letter
  have number : numberLength ('.' :: c :: rest) = 0 := by
    simp [numberLength, signLength, digitsLength, digit]
  unfold read
  dsimp only
  rw [number, beginsRange_dot]
  simp [isWhite, Text.startsWith, beginsIdent, isLetter, beginsEscape]

theorem name_append {n : Text} (chars : ∀ c ∈ n, isNameChar c = true) (fuel : Nat) (t : Text) :
    name (n.length + fuel) (n ++ t) = (n ++ (name fuel t).1, n.length + (name fuel t).2) := by
  induction n with
  | nil => simp
  | cons c n ih =>
    have rest := ih fun d mem => chars d (List.mem_cons_of_mem c mem)
    rw [List.length_cons, Nat.add_right_comm, List.cons_append, name,
      if_pos (chars c List.mem_cons_self), rest]
    simp only [List.cons_append, Prod.mk.injEq, true_and]
    omega

theorem name_eq_nil {fuel : Nat} {t : Text} (none : (name fuel t).1 = []) : (name fuel t).2 = 0 := by
  fun_cases name fuel t <;> simp_all [name]

theorem read_plain_append {n : Text} (plain : Plain n) (fuel : Nat) (t : Text) :
    read fuel (n ++ t) = readIdent fuel (n ++ t) := by
  obtain ⟨c, d, rest, rfl, letter⟩ := plain.begins
  have others := plain.isNameChar d (by simp)
  have plus : d ≠ '+' := by rintro rfl; revert others; decide
  have dash : c ≠ '-' := by rintro rfl; revert letter; decide
  have white : isWhite c = false := by
    rw [Bool.eq_false_iff]
    intro white
    have : c = ' ' ∨ c = '\n' ∨ c = '\t' := by simpa [isWhite, or_assoc] using white
    rcases this with rfl | rfl | rfl <;> (revert letter; decide)
  have range : ¬beginsRange (c :: d :: (rest ++ t)) := by
    intro begins
    obtain ⟨more, same⟩ := beginsRange_plus begins
    exact plus (List.cons.inj same).1
  have arrow : ¬Text.startsWith (c :: d :: (rest ++ t)) "-->".codePoints := by
    simp [Text.startsWith, Ne.symm dash]
  have begins : beginsIdent (c :: d :: (rest ++ t)) := by
    rw [beginsIdent.eq_4 c (d :: (rest ++ t)) dash]
    simp [isLetter, letter]
  simp only [List.cons_append]
  unfold read
  dsimp only
  rw [if_neg (by rw [white]; simp), if_neg range, if_neg arrow, if_pos begins]

theorem read_plain {n t : Text} (plain : Plain n) (bounds : Bounds t) {fuel : Nat}
    (enough : (n ++ t).length ≤ fuel) : read fuel (n ++ t) = one (.ident n) n.length := by
  obtain ⟨more, rfl⟩ : ∃ more, fuel = n.length + more :=
    ⟨fuel - n.length, by rw [List.length_append] at enough; omega⟩
  have stops : name more t = ([], 0) := name_of_other (fun c head => (bounds.char c head).1) bounds.escape
  have named : name (n.length + more) (n ++ t) = (n, n.length) := by
    rw [name_append plain.isNameChar, stops]
    simp
  rw [read_plain_append plain]
  unfold readIdent
  rw [named]
  dsimp only
  rw [List.drop_left]
  split
  · rename_i rest
    exact absurd rfl (bounds.char '(' rfl).2
  · rfl

/-- Lexemes that are neither dots nor names; there is at least one. -/
structure Other (lexemes : List Lexeme) : Prop where
  nonempty : lexemes ≠ []
  none : ∀ l ∈ lexemes, l ≠ .mark [.char '.'] ∧ ∀ n, l ≠ .ident n

theorem other_one {l : Lexeme} (dot : l ≠ .mark [.char '.']) (ident : ∀ n, l ≠ .ident n) : Other [l] := by
  refine ⟨by simp, ?_⟩
  intro k mem
  obtain rfl := List.mem_singleton.mp mem
  exact ⟨dot, ident⟩

theorem url_other (fuel : Nat) (t : Text) : Other (url fuel t).1 := by
  unfold url
  dsimp only
  split
  · exact other_one (by simp) (by simp)
  · split
    · exact other_one (by simp) (by simp)
    · refine ⟨by simp, ?_⟩
      intro l mem
      simp only [List.mem_cons, List.not_mem_nil, or_false] at mem
      rcases mem with rfl | rfl <;> simp

theorem unicodeRange_other (t : Text) : Other [(unicodeRange t).1] := by
  refine other_one ?_ ?_ <;> (unfold unicodeRange; dsimp only; split)
  · simp
  · split
    · split <;> simp
    · simp
  · simp
  · split
    · split <;> simp
    · simp

theorem readIdent_cases {fuel : Nat} {t : Text} {lexemes : List Lexeme} {length : Nat}
    (reading : readIdent fuel t = .tokens lexemes length) :
    (∃ n, lexemes = [.ident n] ∧ name fuel t = (n, length)) ∨ Other lexemes := by
  unfold readIdent at reading
  dsimp only at reading
  split at reading
  · split at reading
    · cases reading; exact .inr (url_other _ _)
    · exact absurd reading (by simp)
  · cases reading; exact .inl ⟨_, rfl, rfl⟩

theorem readNumber_cases {fuel number : Nat} {t : Text} {lexemes : List Lexeme} {length : Nat}
    (reading : readNumber fuel t number = .tokens lexemes length) : Other lexemes := by
  unfold readNumber at reading
  dsimp only at reading
  split at reading
  · cases reading; exact other_one (by simp) (by simp)
  · split at reading
    · cases reading; exact other_one (by simp) (by simp)
    · cases reading; exact other_one (by simp) (by simp)

theorem readString_cases {fuel : Nat} {quote : CodePoint} {t : Text} {lexemes : List Lexeme} {length : Nat}
    (reading : readString fuel quote t = .tokens lexemes length) : Other lexemes := by
  unfold readString at reading
  dsimp only at reading
  cases reading
  split
  · exact other_one (by simp) (by simp)
  · exact other_one (by simp) (by simp)
  · refine ⟨by simp, ?_⟩
    intro l mem
    simp only [List.mem_cons, List.not_mem_nil, or_false] at mem
    rcases mem with rfl | rfl <;> simp

theorem read_cases {fuel : Nat} {c : CodePoint} {rest : Text} {lexemes : List Lexeme} {length : Nat}
    (reading : read fuel (c :: rest) = .tokens lexemes length) :
    (lexemes = [.mark [.char '.']] ∧ c = '.' ∧ length = 1) ∨
    (∃ n, lexemes = [.ident n] ∧ name fuel (c :: rest) = (n, length)) ∨ Other lexemes := by
  unfold read at reading
  dsimp only at reading
  split at reading
  · cases reading; exact .inr (.inr (other_one (by simp) (by simp)))
  split at reading
  · cases reading; exact .inr (.inr (unicodeRange_other _))
  split at reading
  · cases reading; exact .inr (.inr (other_one (by simp) (by simp)))
  split at reading
  · exact .inr (readIdent_cases reading)
  split at reading
  · exact .inr (.inr (readNumber_cases reading))
  split at reading
  · split at reading <;> (cases reading; exact .inr (.inr (other_one (by simp) (by simp))))
  · split at reading <;> (cases reading; exact .inr (.inr (other_one (by simp) (by simp))))
  · exact absurd reading (by simp)
  · exact absurd reading (by simp)
  · exact absurd reading (by simp)
  · cases reading; exact .inr (.inr (other_one (by simp) (by simp)))
  · cases reading; exact .inr (.inr (other_one (by simp) (by simp)))
  · cases reading; exact .inr (.inr (other_one (by simp) (by simp)))
  · exact .inr (.inr (readString_cases reading))
  · exact .inr (.inr (readString_cases reading))
  split at reading
  · cases reading; exact .inr (.inr (other_one (by simp) (by simp)))
  split at reading
  · cases reading; exact .inr (.inr (other_one (by simp) (by simp)))
  split at reading
  · cases reading; exact .inr (.inr (other_one (by simp) (by simp)))
  split at reading
  · cases reading; exact .inr (.inr (other_one (by simp) (by simp)))
  · cases reading
    by_cases dot : c = '.'
    · subst dot
      exact .inl ⟨rfl, rfl, rfl⟩
    · exact .inr (.inr (other_one (by simpa using dot) (by simp)))

/-- A plain name that opens a text and is the value of the identifier there is the whole identifier, and
what follows it ends it. -/
theorem read_ident_plain {fuel : Nat} {raw n t : Text} (enough : (raw ++ t).length ≤ fuel)
    (reading : read fuel (raw ++ t) = one (.ident n) raw.length) (plain : Plain n)
    (opens : n <+: raw ++ t) : raw = n ∧ Bounds t := by
  obtain ⟨u, split⟩ := opens
  rw [← split, read_plain_append plain] at reading
  rw [← split, List.length_append] at enough
  obtain ⟨more, rfl⟩ : ∃ more, fuel = n.length + more := ⟨fuel - n.length, by omega⟩
  have named := name_append plain.isNameChar more u
  rcases readIdent_cases reading with ⟨m, same, whole⟩ | other
  · obtain rfl : n = m := by simpa using same
    rw [named, Prod.mk.injEq] at whole
    have none : (name more u).1 = [] := by simpa using whole.1
    have zero := name_eq_nil none
    have length : n.length = raw.length := by omega
    obtain ⟨rfl, rfl⟩ : n = raw ∧ u = t := List.append_inj split length
    refine ⟨rfl, ?_, ?_⟩
    · intro c head
      constructor
      · rw [Bool.eq_false_iff]
        intro char
        have pos := @name_pos more _ (by omega) (.inl ⟨c, head, char⟩)
        omega
      · rintro rfl
        obtain ⟨rest, rfl⟩ := List.head?_eq_some_iff.mp head
        simp only [readIdent, named, none, zero, List.append_nil, Nat.add_zero, List.drop_left] at reading
        split at reading
        · have lexemes := url_other (n.length + more) rest
          simp only [one, Reading.tokens.injEq] at reading
          rw [reading.1] at lexemes
          exact (lexemes.none _ List.mem_cons_self).2 n rfl
        · exact absurd reading (by simp [one])
    · rw [Bool.eq_false_iff]
      intro escape
      have pos := @name_pos more _ (by omega) (.inr escape)
      omega
  · exact absurd rfl ((other.none _ List.mem_cons_self).2 n)

end Scanner

end ClassMigration.Stylesheet
