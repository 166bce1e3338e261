import ClassMigration.Proofs.Stylesheet.Reading

/-! What is read at the start of a text takes at least one character. It stays the same before alike
continuations, as long as it does not reach into them. -/
namespace ClassMigration.Stylesheet.Scanner

/-- How many characters a reading takes, for a block those of its opening bracket. -/
def Reading.length : Reading → Nat
  | tokens _ length => length
  | function _ length => length
  | block _ => 1

theorem url_snd (fuel : Nat) (t : Text) : (url fuel t).2 =
    (t.takeWhile isWhite).length + (urlBody fuel (t.drop (t.takeWhile isWhite).length)).2.1 := rfl

theorem url_length (fuel : Nat) (t : Text) : (url fuel t).2 ≤ t.length := by
  have run := (List.takeWhile_prefix (l := t) isWhite).length_le
  have body := urlBody_length fuel (t.drop (t.takeWhile isWhite).length)
  rw [List.length_drop] at body
  rw [url_snd]
  omega

theorem url_alike {t t' : Text} (h : Alike t t') (w : Text) (fuel fuel' : Nat)
    (enough : (w ++ t).length ≤ fuel) (enough' : (w ++ t').length ≤ fuel')
    (within : (url fuel (w ++ t)).2 ≤ w.length) : url fuel' (w ++ t') = url fuel (w ++ t) := by
  have run := (h.append w).takeWhile_eq (p := isWhite) (by decide)
  rw [url_snd] at within
  have room : ((w ++ t).takeWhile isWhite).length ≤ w.length := by omega
  rw [List.drop_append_of_le_length room] at within
  simp only [List.length_append] at enough enough'
  have body := urlBody_alike h (w.drop ((w ++ t).takeWhile isWhite).length) fuel fuel'
    (by simp; omega) (by simp; omega) (by rw [List.length_drop]; omega)
  dsimp only [url]
  rw [← run, List.drop_append_of_le_length room, List.drop_append_of_le_length room, body]

theorem quoteFollows_alike {t t' : Text} (h : Alike t t') : quoteFollows t = quoteFollows t' := by
  have next := (h.dropWhile (p := isWhite) (by decide)).head_eq
  unfold quoteFollows
  cases left : t.dropWhile isWhite <;> cases right : t'.dropWhile isWhite <;>
    simp [left, right] at next
  · rfl
  · subst next; rfl

theorem signLength_le (t : Text) : signLength t ≤ 1 ∧ signLength t ≤ t.length := by
  unfold signLength
  split <;> simp

theorem signLength_alike {t t' : Text} (h : Alike t t') :
    signLength t = signLength t' ∧ Alike (t.drop (signLength t)) (t'.drop (signLength t)) := by
  cases h with
  | same t => exact ⟨rfl, .same _⟩
  | dot letter s s' => exact ⟨rfl, .dot letter s s'⟩
  | cons c h =>
    unfold signLength
    split
    · rename_i same; cases same; exact ⟨rfl, h⟩
    · rename_i same; cases same; exact ⟨rfl, h⟩
    · rename_i plus minus
      split
      · rename_i same; cases same; exact absurd rfl (plus _)
      · rename_i same; cases same; exact absurd rfl (minus _)
      · exact ⟨rfl, h.cons c⟩

theorem digitsLength_length (t : Text) : digitsLength t ≤ t.length := by
  have run := (List.takeWhile_prefix (l := t) CodePoint.isDigit).length_le
  unfold digitsLength
  dsimp only
  split
  · rename_i more point
    have room := congrArg List.length point
    have fraction := (List.takeWhile_prefix (l := more) CodePoint.isDigit).length_le
    simp only [List.length_drop, List.length_cons] at room
    split <;> omega
  · exact run

theorem digitsLength_eq (t : Text) : digitsLength t =
    let whole := (t.takeWhile CodePoint.isDigit).length
    let fraction := ((t.drop (whole + 1)).takeWhile CodePoint.isDigit).length
    if (t.drop whole).head? = some (.char '.') ∧ fraction ≠ 0 then whole + 1 + fraction else whole := by
  unfold digitsLength
  dsimp only
  split
  · rename_i more point
    have beyond : t.drop ((t.takeWhile CodePoint.isDigit).length + 1) = more := by
      rw [← List.drop_drop, point, List.drop_one, List.tail_cons]
    simp only [point, beyond, List.head?_cons, true_and, beq_iff_eq]
    split <;> simp_all
  · rename_i other
    rw [if_neg]
    rintro ⟨point, -⟩
    cases rest : t.drop (t.takeWhile CodePoint.isDigit).length with
    | nil => simp [rest] at point
    | cons c more => simp [rest] at point; exact other more (by rw [rest, point])

theorem not_digit_of_letter {c : CodePoint} (letter : c.isAlpha) : c.isDigit = false := by
  cases c with
  | surrogate => rfl
  | char c =>
    have cased : (decide (c.val ≥ 65 ∧ c.val ≤ 90) || c.val ≥ 97 && c.val ≤ 122) = true := letter
    simp only [CodePoint.isDigit, CodePoint.passes, Char.isDigit, Bool.or_eq_true, Bool.and_eq_true,
      decide_eq_true_eq, Bool.and_eq_false_iff, decide_eq_false_iff_not, UInt32.le_iff_toNat_le, ge_iff_le] at cased ⊢
    simp at *
    omega

theorem digitsLength_alike {t t' : Text} (h : Alike t t') : digitsLength t = digitsLength t' ∧
    Alike (t.drop (digitsLength t)) (t'.drop (digitsLength t)) := by
  have run := h.takeWhile_eq (p := CodePoint.isDigit) (by decide)
  have beyond := h.drop_takeWhile (p := CodePoint.isDigit) (by decide)
  have next := beyond.head_eq
  rw [digitsLength_eq, digitsLength_eq, ← run]
  dsimp only
  rw [← next]
  by_cases point : (t.drop (t.takeWhile CodePoint.isDigit).length).head? = some (.char '.')
  · obtain ⟨s, left⟩ : ∃ s, t.drop (t.takeWhile CodePoint.isDigit).length = .char '.' :: s :=
      List.head?_eq_some_iff.mp point
    rw [left] at beyond
    obtain ⟨s', right, goes⟩ := beyond.cons_cases
    have cut : t.drop ((t.takeWhile CodePoint.isDigit).length + 1) = s := by
      rw [← List.drop_drop, left, List.drop_one, List.tail_cons]
    have cut' : t'.drop ((t.takeWhile CodePoint.isDigit).length + 1) = s' := by
      rw [← List.drop_drop, right, List.drop_one, List.tail_cons]
    rw [cut, cut']
    rcases goes with tails | ⟨-, d, letter, head, head'⟩
    · have fraction := tails.takeWhile_eq (p := CodePoint.isDigit) (by decide)
      rw [← fraction]
      refine ⟨rfl, ?_⟩
      split
      · have rest := tails.drop_takeWhile (p := CodePoint.isDigit) (by decide)
        rw [← List.drop_drop, cut, ← List.drop_drop, cut']
        exact rest
      · rw [left]; exact beyond
    · have digit := not_digit_of_letter letter
      have none : s.takeWhile CodePoint.isDigit = [] := by
        cases s <;> simp at head; subst head; simp [digit]
      have none' : s'.takeWhile CodePoint.isDigit = [] := by
        cases s' <;> simp at head'; subst head'; simp [digit]
      simp only [none, none', List.length_nil, ne_eq, not_true_eq_false, and_false, ↓reduceIte,
        true_and]
      rw [left]; exact beyond
  · simp only [point, false_and, ↓reduceIte, true_and]
    exact beyond

theorem exponentLength_length (t : Text) : exponentLength t ≤ t.length := by
  unfold exponentLength
  split
  · rename_i c rest
    have sign := (signLength_le rest).2
    have run := (List.takeWhile_prefix (l := rest.drop (signLength rest)) CodePoint.isDigit).length_le
    rw [List.length_drop] at run
    split
    · dsimp only; split <;> simp; omega
    · simp
  · simp

theorem exponentLength_alike {t t' : Text} (h : Alike t t') :
    exponentLength t = exponentLength t' := by
  cases h with
  | same => rfl
  | dot => rfl
  | cons c h =>
    obtain ⟨sign, beyond⟩ := signLength_alike h
    have run := beyond.takeWhile_eq (p := CodePoint.isDigit) (by decide)
    simp only [exponentLength, ← sign, ← run]

theorem numberLength_length (t : Text) : numberLength t ≤ t.length := by
  have sign := (signLength_le t).2
  have digits := digitsLength_length (t.drop (signLength t))
  have exponent := exponentLength_length
    (t.drop (signLength t + digitsLength (t.drop (signLength t))))
  rw [List.length_drop] at digits exponent
  unfold numberLength
  dsimp only
  split <;> omega

theorem numberLength_alike {t t' : Text} (h : Alike t t') : numberLength t = numberLength t' := by
  obtain ⟨sign, unsigned⟩ := signLength_alike h
  obtain ⟨digits, beyond⟩ := digitsLength_alike unsigned
  rw [List.drop_drop, List.drop_drop] at beyond
  have exponent := exponentLength_alike beyond
  simp only [numberLength, ← sign, ← digits, ← exponent]

theorem unicodeRange_length (t : Text) : (unicodeRange t).2 ≤ t.length := by
  have run := (List.takeWhile_prefix (l := t.take 6) Text.isHexDigit).length_le
  unfold unicodeRange
  dsimp only
  split
  · have wild := (List.takeWhile_prefix (l := (t.drop ((t.take 6).takeWhile Text.isHexDigit).length).take
      (6 - ((t.take 6).takeWhile Text.isHexDigit).length)) (· == '?')).length_le
    simp only [List.length_take, List.length_drop] at run wild
    dsimp only
    omega
  · split
    · rename_i more dash
      have room := congrArg List.length dash
      have last := (List.takeWhile_prefix (l := more.take 6) Text.isHexDigit).length_le
      simp only [List.length_take, List.length_drop, List.length_cons] at run last room
      split <;> (dsimp only; omega)
    · rw [List.length_take] at run
      dsimp only
      omega

theorem unicodeRange_alike {t t' : Text} (h : Alike t t') : unicodeRange t = unicodeRange t' := by
  have digits := h.take_takeWhile_eq (p := Text.isHexDigit) (by decide) 6
  have beyond := h.drop_take_takeWhile (p := Text.isHexDigit) (by decide) 6
  have wild := beyond.take_takeWhile_eq (p := (· == '?')) (by decide)
    (6 - ((t.take 6).takeWhile Text.isHexDigit).length)
  unfold unicodeRange
  simp only [← digits, ← wild]
  split
  · rfl
  · revert beyond
    generalize t.drop _ = u, t'.drop _ = u'
    intro beyond
    cases beyond with
    | same => rfl
    | dot => rfl
    | cons c h =>
      by_cases dash : c = '-'
      · subst dash
        have last := h.take_takeWhile_eq (p := Text.isHexDigit) (by decide) 6
        simp only [last]
      · simp [dash]

theorem beginsRange_dot (rest : Text) : beginsRange ('.' :: rest) = false := by
  unfold beginsRange
  split
  · rename_i same; cases same; rfl
  · rfl

theorem beginsRange_alike {t t' : Text} (h : Alike t t') : beginsRange t = beginsRange t' := by
  cases h with
  | same => rfl
  | dot letter s s' => rw [beginsRange_dot, beginsRange_dot]
  | cons c h =>
    cases h with
    | same => rfl
    | dot letter s s' => rfl
    | cons d h =>
      by_cases plus : d = '+'
      · subst plus
        have next := h.head_eq
        rename_i t t'
        cases t <;> cases t' <;> simp at next
        · rfl
        · subst next; rfl
      · simp [beginsRange, plus]

theorem beginsRange_plus {c : CodePoint} {rest : Text} (begins : beginsRange (c :: rest)) :
    ∃ more, rest = .char '+' :: more := by
  unfold beginsRange at begins
  split at begins
  · rename_i same; cases same; exact ⟨_, rfl⟩
  · simp at begins

theorem beginsIdent_name {t : Text} (begins : beginsIdent t) :
    (∃ c, t.head? = some c ∧ isNameChar c) ∨ beginsEscape t := by
  unfold beginsIdent at begins
  split at begins
  · simp at begins
  · exact .inl ⟨'-', rfl, by simp [isNameChar]⟩
  · rename_i c rest _
    rw [Bool.or_eq_true] at begins
    rcases begins with letter | escape
    · exact .inl ⟨c, rfl, by simp [isNameChar, letter]⟩
    · exact .inr escape

theorem readIdent_length {fuel : Nat} {t : Text} (begins : beginsIdent t) (enough : t.length ≤ fuel) :
    0 < (readIdent fuel t).length ∧ (readIdent fuel t).length ≤ t.length := by
  have pos := name_pos enough (beginsIdent_name begins)
  have bound := name_length fuel t
  unfold readIdent
  dsimp only
  split
  · rename_i rest paren
    have room := congrArg List.length paren
    have address := url_length fuel rest
    simp only [List.length_drop, List.length_cons] at room
    split
    · dsimp only [Reading.length]
      rw [show (url fuel rest).snd = (url fuel rest).2 from rfl] at address
      omega
    · dsimp only [Reading.length]; omega
  · exact ⟨pos, bound⟩

theorem name_le_readIdent (fuel : Nat) (t : Text) : (name fuel t).2 ≤ (readIdent fuel t).length := by
  unfold readIdent
  dsimp only
  split
  · split
    · dsimp only [Reading.length]; omega
    · dsimp only [Reading.length]; omega
  · exact Nat.le_refl _

theorem readIdent_alike {t t' : Text} (h : Alike t t') (w : Text) (fuel fuel' : Nat)
    (enough : (w ++ t).length ≤ fuel) (enough' : (w ++ t').length ≤ fuel')
    (within : (readIdent fuel (w ++ t)).length ≤ w.length) :
    readIdent fuel' (w ++ t') = readIdent fuel (w ++ t) := by
  have room := Nat.le_trans (name_le_readIdent fuel (w ++ t)) within
  have named := name_alike h w fuel fuel' enough enough' room
  unfold readIdent at within ⊢
  dsimp only at within ⊢
  rw [List.drop_append_of_le_length room] at within ⊢
  rw [named, List.drop_append_of_le_length room]
  cases cut : w.drop (name fuel (w ++ t)).2 with
  | nil =>
    rw [cut] at within
    have all : w.length ≤ (name fuel (w ++ t)).2 := List.drop_eq_nil_iff.mp cut
    cases t with
    | nil => rw [h.eq_nil, List.nil_append]
    | cons c r =>
      obtain ⟨r', rfl, _⟩ := h.cons_cases
      by_cases paren : c = '('
      · subst paren
        simp only [List.nil_append] at within
        exfalso
        split at within
        · dsimp only [Reading.length] at within; omega
        · dsimp only [Reading.length] at within; omega
      · simp [paren]
  | cons c rest =>
    rw [cut] at within
    have size := congrArg List.length cut
    rw [List.length_drop, List.length_cons] at size
    simp only [List.length_append] at enough enough'
    by_cases paren : c = '('
    · subst paren
      have follows := quoteFollows_alike (h.append rest)
      simp only [List.cons_append] at within ⊢
      rw [← follows]
      by_cases address : (Text.lowered (name fuel (w ++ t)).1 == "url".codePoints &&
          !quoteFollows (rest ++ t)) = true
      · rw [if_pos address] at within
        have body := url_alike h rest fuel fuel' (by simp; omega) (by simp; omega)
          (by change _ + (url fuel (rest ++ t)).2 ≤ _ at within; omega)
        rw [if_pos address, if_pos address, body]
      · rw [if_neg address, if_neg address]
    · simp [paren]

theorem readNumber_length {fuel length : Nat} {t : Text} (number : length ≤ t.length) :
    length ≤ (readNumber fuel t length).length ∧ (readNumber fuel t length).length ≤ t.length := by
  have unit := name_length fuel (t.drop length)
  rw [List.length_drop] at unit
  unfold readNumber
  dsimp only
  split
  · dsimp only [one, Reading.length]; omega
  · split
    · rename_i percent
      dsimp only [one, Reading.length]
      cases rest : t.drop length with
      | nil => simp [rest] at percent
      | cons c more =>
        have room := congrArg List.length rest
        rw [List.length_drop, List.length_cons] at room
        omega
    · dsimp only [one, Reading.length]; omega

theorem readNumber_alike {t t' : Text} (h : Alike t t') (w : Text) (fuel fuel' length : Nat)
    (enough : (w ++ t).length ≤ fuel) (enough' : (w ++ t').length ≤ fuel') (room : length ≤ w.length)
    (within : (readNumber fuel (w ++ t) length).length ≤ w.length) :
    readNumber fuel' (w ++ t') length = readNumber fuel (w ++ t) length := by
  have begins := beginsIdent_alike (h.append (w.drop length))
  have next := (h.append (w.drop length)).head_eq
  simp only [List.length_append] at enough enough'
  unfold readNumber at within ⊢
  dsimp only at within ⊢
  rw [List.drop_append_of_le_length room] at within ⊢
  rw [List.drop_append_of_le_length room, List.take_append_of_le_length room,
    List.take_append_of_le_length room, ← begins, ← next]
  split
  · rename_i named
    rw [if_pos named] at within
    dsimp only [one, Reading.length] at within
    rw [name_alike h (w.drop length) fuel fuel' (by simp; omega) (by simp; omega) (by simp; omega)]
  · rfl

theorem readString_length (fuel : Nat) (quote : CodePoint) (t : Text) :
    0 < (readString fuel quote t).length ∧ (readString fuel quote t).length ≤ t.length + 1 := by
  have body := quoted_length quote fuel t
  exact ⟨Nat.succ_pos _, Nat.succ_le_succ body⟩

theorem readString_alike {t t' : Text} (h : Alike t t') (quote : CodePoint) (w : Text) (fuel fuel' : Nat)
    (enough : (w ++ t).length ≤ fuel) (enough' : (w ++ t').length ≤ fuel')
    (within : (readString fuel quote (w ++ t)).length ≤ w.length + 1) :
    readString fuel' quote (w ++ t') = readString fuel quote (w ++ t) := by
  have body := quoted_alike h quote w fuel fuel' enough enough' (Nat.le_of_succ_le_succ within)
  unfold readString
  rw [body]

theorem length_of_startsWith {t opening : Text} (starts : Text.startsWith t opening) :
    opening.length ≤ t.length := (Text.startsWith_iff.mp starts).length_le

theorem read_length {fuel : Nat} {c : CodePoint} {rest : Text} (enough : (c :: rest).length ≤ fuel) :
    0 < (read fuel (c :: rest)).length ∧ (read fuel (c :: rest)).length ≤ (c :: rest).length := by
  have names := name_length fuel rest
  unfold read
  dsimp only
  split
  · rename_i white
    have run := (List.takeWhile_prefix (l := c :: rest) isWhite).length_le
    refine ⟨?_, run⟩
    rw [List.takeWhile_cons, if_pos white]
    exact Nat.succ_pos _
  split
  · rename_i range
    have run := unicodeRange_length ((c :: rest).drop 2)
    have two : 2 ≤ (c :: rest).length := by
      rcases rest with _ | ⟨d, rest⟩
      · simp [beginsRange] at range
      · simp
    rw [List.length_drop] at run
    exact ⟨Nat.succ_pos _, by change _ + 2 ≤ _; omega⟩
  split
  · rename_i arrow
    exact ⟨Nat.succ_pos _, length_of_startsWith arrow⟩
  split
  · rename_i begins
    exact readIdent_length begins enough
  split
  · rename_i some
    have number := @readNumber_length fuel _ _ (numberLength_length (c :: rest))
    simp only [bne_iff_ne, ne_eq] at some
    omega
  split
  · split
    · exact ⟨Nat.succ_pos _, Nat.succ_le_succ names⟩
    · exact ⟨Nat.one_pos, Nat.succ_pos _⟩
  · split
    · exact ⟨Nat.succ_pos _, Nat.succ_le_succ names⟩
    · exact ⟨Nat.one_pos, Nat.succ_pos _⟩
  all_goals first
    | exact ⟨Nat.one_pos, Nat.succ_pos _⟩
    | exact readString_length fuel _ rest
    | skip
  split
  · rename_i slash
    have two := length_of_startsWith slash
    have body := commentLength_length ((c :: rest).drop 2)
    rw [List.length_drop] at body
    simp only [List.length_cons, List.length_nil, Nat.zero_add, Nat.reduceAdd] at two body ⊢
    dsimp only [one, Reading.length]
    constructor <;> omega
  split
  · rename_i arrow
    exact ⟨Nat.succ_pos _, length_of_startsWith arrow⟩
  split
  · rename_i bars
    exact ⟨Nat.succ_pos _, length_of_startsWith bars⟩
  split
  · rename_i equals
    refine ⟨Nat.succ_pos _, ?_⟩
    rcases rest with _ | ⟨d, rest⟩
    · simp at equals
    · exact Nat.succ_le_succ (Nat.succ_pos _)
  · exact ⟨Nat.one_pos, Nat.succ_pos _⟩

theorem read_alike {t t' : Text} (h : Alike t t') (c : CodePoint) (w : Text) (fuel fuel' : Nat)
    (enough : (c :: (w ++ t)).length ≤ fuel) (enough' : (c :: (w ++ t')).length ≤ fuel')
    (within : (read fuel (c :: (w ++ t))).length ≤ (c :: w).length) :
    read fuel' (c :: (w ++ t')) = read fuel (c :: (w ++ t)) := by
  have rest := h.append w
  have text := h.append (c :: w)
  have white := text.takeWhile_eq (p := isWhite) (by decide)
  have range := beginsRange_alike text
  have begins := beginsIdent_alike text
  have number := numberLength_alike text
  have arrow := text.startsWith_eq (show .char '.' ∉ "-->".codePoints by decide)
  have slash := text.startsWith_eq (show .char '.' ∉ ([.char '/', .char '*'] : Text) by decide)
  have markup := text.startsWith_eq (show .char '.' ∉ "<!--".codePoints by decide)
  have bars := text.startsWith_eq (show .char '.' ∉ ([.char '|', .char '|'] : Text) by decide)
  have next := rest.head_eq
  have named := beginsIdent_alike rest
  have escape := beginsEscape_alike rest
  simp only [List.cons_append, List.length_cons] at *
  have namesAlike : (name fuel (w ++ t)).2 ≤ w.length →
      name fuel' (w ++ t') = name fuel (w ++ t) :=
    name_alike h w fuel fuel' (by omega) (by omega)
  unfold read at within ⊢
  dsimp only at within ⊢
  rw [← white, ← range, ← begins, ← number, ← arrow, ← slash, ← markup, ← bars, ← next, ← named,
    ← escape]
  by_cases isWhite : isWhite c
  · rw [if_pos isWhite, if_pos isWhite]
  rw [if_neg isWhite] at within
  rw [if_neg isWhite, if_neg isWhite]
  by_cases isRange : beginsRange (c :: (w ++ t))
  · obtain ⟨more, plus⟩ := beginsRange_plus isRange
    rw [plus] at rest
    obtain ⟨more', plus', beyond⟩ := rest.tail (by decide)
    rw [if_pos isRange, if_pos isRange, plus, plus', List.drop_succ_cons, List.drop_succ_cons,
      List.drop_succ_cons, List.drop_succ_cons, List.drop_zero, List.drop_zero,
      unicodeRange_alike beyond]
  rw [if_neg isRange] at within
  rw [if_neg isRange, if_neg isRange]
  by_cases isArrow : Text.startsWith (c :: (w ++ t)) "-->".codePoints
  · rw [if_pos isArrow, if_pos isArrow]
  rw [if_neg isArrow] at within
  rw [if_neg isArrow, if_neg isArrow]
  by_cases isIdent : beginsIdent (c :: (w ++ t))
  · rw [if_pos isIdent] at within
    rw [if_pos isIdent, if_pos isIdent]
    exact readIdent_alike h (c :: w) fuel fuel' enough enough' within
  rw [if_neg isIdent] at within
  rw [if_neg isIdent, if_neg isIdent]
  by_cases isNumber : numberLength (c :: (w ++ t)) != 0
  · rw [if_pos isNumber] at within
    rw [if_pos isNumber, if_pos isNumber]
    have length := (@readNumber_length fuel _ _ (numberLength_length (c :: (w ++ t)))).1
    exact readNumber_alike h (c :: w) fuel fuel' _ enough enough' (Nat.le_trans length within) within
  rw [if_neg isNumber] at within
  rw [if_neg isNumber, if_neg isNumber]
  split at within
  all_goals try rfl
  · split at within
    · rename_i isName
      rw [if_pos isName, if_pos isName, namesAlike (Nat.le_of_succ_le_succ within)]
    · rename_i isMark
      rw [if_neg isMark, if_neg isMark]
  · split at within
    · rename_i isName
      rw [if_pos isName, if_pos isName, namesAlike (Nat.le_of_succ_le_succ within)]
    · rename_i isMark
      rw [if_neg isMark, if_neg isMark]
  · exact readString_alike h '"' w fuel fuel' (by omega) (by omega) within
  · exact readString_alike h '\'' w fuel fuel' (by omega) (by omega) within
  · by_cases isComment : Text.startsWith (c :: (w ++ t)) [.char '/', .char '*']
    · rw [if_pos isComment] at within
      rw [if_pos isComment, if_pos isComment]
      dsimp only [one, Reading.length] at within
      rcases w with _ | ⟨d, w⟩
      · rw [List.length_nil] at within
        omega
      · simp only [List.cons_append, List.drop_succ_cons, List.drop_zero,
          List.length_cons] at within ⊢
        have body := commentLength_alike h w (by omega)
        rw [body, List.take_append_of_le_length (by omega),
          List.take_append_of_le_length (by omega)]
    · rw [if_neg isComment, if_neg isComment]

end ClassMigration.Stylesheet.Scanner
