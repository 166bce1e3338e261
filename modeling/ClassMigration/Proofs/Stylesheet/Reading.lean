import ClassMigration.Proofs.Stylesheet.Alike

/-! What stands at the start of a text. A reading takes at least one character and no more than there are;
neither the bound on its steps nor alike continuations behind it change it. -/
namespace ClassMigration.Stylesheet.Scanner

theorem escaped_length (rest : Text) : (escaped rest).2 ≤ rest.length := by
  have digits : ((rest.take 6).takeWhile Text.isHexDigit).length ≤ rest.length :=
    Nat.le_trans (List.takeWhile_prefix _).length_le (by rw [List.length_take]; omega)
  unfold escaped
  simp only
  split
  · cases rest <;> simp
  · cases more : rest.drop ((rest.take 6).takeWhile Text.isHexDigit).length with
    | nil => simpa using digits
    | cons c more' =>
      have room := congrArg List.length more
      simp only [List.length_drop, List.length_cons] at room
      simp only
      split <;> omega

theorem escaped_pos (c : CodePoint) (rest : Text) : 0 < (escaped (c :: rest)).2 := by
  unfold escaped
  simp only
  split
  · simp
  · rename_i digits
    have := List.length_pos_iff.mpr (fun none => digits (List.isEmpty_iff.mpr none))
    exact Nat.add_pos_left this _

theorem name_of_other {fuel : Nat} {t : Text} (char : ∀ c, t.head? = some c → isNameChar c = false)
    (escape : beginsEscape t = false) : name fuel t = ([], 0) := by
  cases fuel with
  | zero => rfl
  | succ fuel =>
    cases t with
    | nil => rfl
    | cons c rest => simp [name, char c rfl, escape]

theorem name_length (fuel : Nat) (t : Text) : (name fuel t).2 ≤ t.length := by
  fun_induction name fuel t with
  | case1 | case2 => simp
  | case3 fuel c rest _ more length read ih => simp [read] at ih; simp; omega
  | case4 fuel c rest _ _ char skipped escape more length read ih =>
    have bound := escaped_length rest
    simp [read] at ih
    simp only [escape] at bound
    simp; omega
  | case5 => simp

theorem name_pos {fuel : Nat} {t : Text} (enough : t.length ≤ fuel)
    (begins : (∃ c, t.head? = some c ∧ isNameChar c) ∨ beginsEscape t) : 0 < (name fuel t).2 := by
  cases fuel with
  | zero => simp at enough; simp [enough, beginsEscape] at begins
  | succ fuel =>
    cases t with
    | nil => simp [beginsEscape] at begins
    | cons c rest =>
      rw [name]
      split
      · simp
      · split
        · simp
        · simp_all

theorem name_alike {t t' : Text} (h : Alike t t') (w : Text) (fuel fuel' : Nat)
    (enough : (w ++ t).length ≤ fuel) (enough' : (w ++ t').length ≤ fuel')
    (within : (name fuel (w ++ t)).2 ≤ w.length) :
    name fuel' (w ++ t') = name fuel (w ++ t) := by
  induction fuel generalizing w fuel' with
  | zero =>
    obtain ⟨rfl, rfl⟩ : w = [] ∧ t = [] := by simpa using enough
    rw [h.eq_nil]; cases fuel' <;> rfl
  | succ fuel ih =>
    cases w with
    | nil =>
      have none : ¬((∃ c, t.head? = some c ∧ isNameChar c) ∨ beginsEscape t) := by
        intro begins
        have pos := name_pos enough begins
        simp at within pos; omega
      simp only [not_or, not_exists, not_and] at none
      rw [List.nil_append, List.nil_append, name_of_other, name_of_other]
      · intro c head; simpa using none.1 c head
      · simpa using none.2
      · intro c head; simpa using none.1 c (h.head_eq ▸ head)
      · rw [← beginsEscape_alike h]; simpa using none.2
    | cons c w =>
      obtain ⟨fuel', rfl⟩ : ∃ k, fuel' = k + 1 := ⟨fuel' - 1, by simp at enough'; omega⟩
      have same := beginsEscape_alike (h.append (c :: w))
      have rest := h.append w
      simp only [List.cons_append, List.length_cons, Nat.add_le_add_iff_right] at *
      by_cases inside : isNameChar c
      · simp only [name, inside, ↓reduceIte, Nat.add_le_add_iff_right] at within ⊢
        rw [ih w fuel' enough enough' within]
      · by_cases escape : beginsEscape (c :: (w ++ t))
        · have also : beginsEscape (c :: (w ++ t')) := same ▸ escape
          simp only [name, inside, escape, also, ↓reduceIte, Bool.false_eq_true] at within ⊢
          rw [← escaped_alike rest]
          have room : (escaped (w ++ t)).2 ≤ w.length := by omega
          rw [List.drop_append_of_le_length room] at within ⊢
          rw [List.drop_append_of_le_length room]
          rw [ih (w.drop (escaped (w ++ t)).2) fuel' (by simp; simp at enough; omega)
            (by simp; simp at enough'; omega) (by simp; omega)]
        · have also : ¬beginsEscape (c :: (w ++ t')) := same ▸ escape
          simp [name, inside, escape, also]

theorem quoted_joined {quote : CodePoint} (differs : '\\' ≠ quote) (fuel : Nat) (rest : Text) :
    quoted quote (fuel + 1) ('\\' :: '\n' :: rest) =
      ((quoted quote fuel rest).1, (quoted quote fuel rest).2.1 + 2, (quoted quote fuel rest).2.2) := by
  rw [quoted.eq_4]
  simp [differs]

theorem quoted_escape {quote d : CodePoint} (differs : '\\' ≠ quote) (visible : d ≠ '\n') (fuel : Nat)
    (rest more : Text) (cut : (d :: rest).drop (escaped (d :: rest)).2 = more) :
    quoted quote (fuel + 1) ('\\' :: d :: rest) =
      ((escaped (d :: rest)).1 :: (quoted quote fuel more).1,
        (quoted quote fuel more).2.1 + (escaped (d :: rest)).2 + 1, (quoted quote fuel more).2.2) := by
  rw [quoted.eq_5 _ _ _ _ (by simp) (by simp [visible]), ← cut]
  simp [differs]

theorem quoted_plain {quote c : CodePoint} (opens : c ≠ quote) (slash : c ≠ '\\') (newline : c ≠ '\n')
    (fuel : Nat) (rest : Text) :
    quoted quote (fuel + 1) (c :: rest) =
      (c :: (quoted quote fuel rest).1, (quoted quote fuel rest).2.1 + 1, (quoted quote fuel rest).2.2) := by
  simp [quoted, opens, slash, newline]

theorem quoted_length (quote : CodePoint) (fuel : Nat) (t : Text) :
    (quoted quote fuel t).2.1 ≤ t.length := by
  induction fuel generalizing t with
  | zero => simp [quoted]
  | succ fuel ih =>
    rcases t with _ | ⟨c, rest⟩
    · simp [quoted]
    by_cases closes : c = quote
    · simp [quoted, closes]
    by_cases slash : c = '\\'
    · subst slash
      rcases rest with _ | ⟨d, rest⟩
      · simp [quoted, closes]
      by_cases newline : d = '\n'
      · have later := ih rest
        rw [newline, quoted_joined closes, List.length_cons, List.length_cons]
        dsimp only
        omega
      · have bound := escaped_length (d :: rest)
        have later := ih ((d :: rest).drop (escaped (d :: rest)).2)
        rw [List.length_drop, List.length_cons] at later
        rw [quoted_escape closes newline fuel rest _ rfl]
        simp only [List.length_cons] at bound ⊢
        omega
    by_cases newline : c = '\n'
    · subst newline
      simp [quoted, closes]
    · have later := ih rest
      rw [quoted_plain closes slash newline, List.length_cons]
      dsimp only
      omega

/-- A string without its first character is read to no length only before a line end. -/
theorem quoted_pos {quote c : CodePoint} (stops : c = quote ∨ c ≠ '\n') (fuel : Nat) (rest : Text) :
    0 < (quoted quote (fuel + 1) (c :: rest)).2.1 := by
  by_cases closes : c = quote
  · simp [quoted, closes]
  by_cases slash : c = '\\'
  · subst slash
    rcases rest with _ | ⟨d, rest⟩
    · simp [quoted, closes]
    by_cases newline : d = '\n'
    · rw [newline, quoted_joined closes]
      exact Nat.succ_pos _
    · rw [quoted_escape closes newline fuel rest _ rfl]
      exact Nat.succ_pos _
  · rw [quoted_plain closes slash (stops.resolve_left closes)]
    exact Nat.succ_pos _

theorem quoted_alike {t t' : Text} (h : Alike t t') (quote : CodePoint) (w : Text) (fuel fuel' : Nat)
    (enough : (w ++ t).length ≤ fuel) (enough' : (w ++ t').length ≤ fuel')
    (within : (quoted quote fuel (w ++ t)).2.1 ≤ w.length) :
    quoted quote fuel' (w ++ t') = quoted quote fuel (w ++ t) := by
  induction fuel generalizing w fuel' with
  | zero =>
    obtain ⟨rfl, rfl⟩ : w = [] ∧ t = [] := by simpa using enough
    rw [h.eq_nil]; cases fuel' <;> rfl
  | succ fuel ih =>
    rcases w with _ | ⟨c, w⟩
    · rcases t with _ | ⟨c, rest⟩
      · rw [h.eq_nil]; cases fuel' <;> rfl
      obtain ⟨rest', rfl, _⟩ := h.cons_cases
      obtain ⟨fuel', rfl⟩ : ∃ k, fuel' = k + 1 := ⟨fuel' - 1, by simp at enough'; omega⟩
      by_cases stops : c = quote ∨ c ≠ '\n'
      · have pos := quoted_pos stops fuel rest
        rw [List.nil_append, List.length_nil] at within
        omega
      · simp only [not_or, ne_eq, Decidable.not_not] at stops
        obtain ⟨opens, rfl⟩ := stops
        simp [quoted, opens]
    obtain ⟨fuel', rfl⟩ : ∃ k, fuel' = k + 1 := ⟨fuel' - 1, by simp at enough'; omega⟩
    have rest := h.append w
    simp only [List.cons_append, List.length_cons, Nat.add_le_add_iff_right] at *
    by_cases closes : c = quote
    · simp [quoted, closes]
    by_cases slash : c = '\\'
    · subst slash
      rcases w with _ | ⟨d, w⟩
      · rcases t with _ | ⟨d, r⟩
        · rw [h.eq_nil]; simp [quoted]
        by_cases newline : d = '\n'
        · rw [newline, List.nil_append, quoted_joined closes, List.length_nil] at within
          dsimp only at within
          omega
        · have pos := escaped_pos d r
          rw [List.nil_append, quoted_escape closes newline fuel r _ rfl, List.length_nil] at within
          dsimp only at within
          omega
      by_cases newline : d = '\n'
      · subst newline
        simp only [List.cons_append, List.length_cons] at enough enough'
        rw [List.cons_append, quoted_joined closes, List.length_cons] at within
        dsimp only at within
        rw [List.cons_append, List.cons_append, quoted_joined closes, quoted_joined closes,
          ih w fuel' (by omega) (by omega) (by omega)]
      · have same := escaped_alike rest
        rw [List.cons_append, List.cons_append] at same
        rw [List.cons_append, quoted_escape closes newline fuel _ _ rfl, List.length_cons] at within
        dsimp only at within
        have room : (escaped (d :: (w ++ t))).2 ≤ (d :: w).length := by rw [List.length_cons]; omega
        have cut := @List.drop_append_of_le_length _ _ t _ room
        have cut' := @List.drop_append_of_le_length _ _ t' _ room
        rw [same] at cut'
        rw [List.cons_append] at cut cut'
        rw [cut] at within
        rw [List.cons_append, List.cons_append, quoted_escape closes newline fuel' _ _ cut',
          quoted_escape closes newline fuel _ _ cut, ← same]
        simp only [List.cons_append, List.length_cons, List.length_append] at enough enough' room within
        rw [ih ((d :: w).drop _) fuel' (by simp; omega) (by simp; omega) (by simp; omega)]
    by_cases newline : c = '\n'
    · subst newline
      simp [quoted, closes]
    · rw [quoted_plain closes slash newline] at within
      dsimp only at within
      rw [quoted_plain closes slash newline, quoted_plain closes slash newline,
        ih w fuel' enough enough' (by omega)]

theorem commentLength_length (t : Text) :
    (commentLength t).1 + (if (commentLength t).2 then 2 else 0) ≤ t.length := by
  fun_induction commentLength t with
  | case1 => simp
  | case2 => simp
  | case3 c rest _ length closed read ih =>
    simp only [read] at ih
    simp only [List.length_cons]
    omega

theorem commentLength_open (t : Text) (isOpen : (commentLength t).2 = false) :
    (commentLength t).1 = t.length := by
  fun_induction commentLength t with
  | case1 => rfl
  | case2 => simp at isOpen
  | case3 c rest _ length closed read ih =>
    simp only [read] at ih
    simp [ih isOpen]

/-- Two texts go on alike as comments if their first two characters agree. -/
theorem commentLength_cons {c : CodePoint} {rest : Text} (goes : ¬(c = '*' ∧ rest.head? = some (.char '/'))) :
    commentLength (c :: rest) = ((commentLength rest).1 + 1, (commentLength rest).2) := by
  rw [commentLength.eq_3 c rest]
  rintro more rfl rfl
  exact goes ⟨rfl, rfl⟩

theorem commentLength_alike {t t' : Text} (h : Alike t t') (w : Text)
    (within : (commentLength (w ++ t)).1 + (if (commentLength (w ++ t)).2 then 2 else 0) ≤ w.length) :
    commentLength (w ++ t') = commentLength (w ++ t) := by
  induction w with
  | nil =>
    simp only [List.nil_append, List.length_nil] at within ⊢
    cases isOpen : (commentLength t).2 with
    | true => simp [isOpen] at within
    | false =>
      have all := commentLength_open t isOpen
      obtain rfl : t = [] := List.length_eq_zero_iff.mp (by omega)
      rw [h.eq_nil]
  | cons c w ih =>
    have next := (h.append w).head_eq
    by_cases closes : c = '*' ∧ (w ++ t).head? = some (.char '/')
    · obtain ⟨rfl, slash⟩ := closes
      cases w with
      | nil =>
        cases t with
        | nil => simp at slash
        | cons d r =>
          obtain rfl : d = '/' := by simpa using slash
          simp [commentLength] at within
      | cons d w =>
        obtain rfl : d = '/' := by simpa using slash
        rfl
    · have goes : ¬(c = '*' ∧ (w ++ t').head? = some (.char '/')) := by rw [← next]; exact closes
      rw [List.cons_append, commentLength_cons closes, List.length_cons] at within
      rw [List.cons_append, List.cons_append, commentLength_cons closes, commentLength_cons goes]
      dsimp only at within
      rw [ih (by omega)]

theorem badUrlLength_length (t : Text) : badUrlLength t ≤ t.length := by
  fun_induction badUrlLength t <;> simp <;> omega

/-- The rest of a bad address goes on behind a character that is none of its marks. -/
theorem badUrlLength_cons {c : CodePoint} {rest : Text} (closes : c ≠ ')')
    (escape : ¬(c = '\\' ∧ rest.head? = some (.char ')'))) :
    badUrlLength (c :: rest) = badUrlLength rest + 1 := by
  refine badUrlLength.eq_4 c rest ?_ closes
  rintro more rfl rfl
  exact escape ⟨rfl, rfl⟩

theorem badUrlLength_pos (c : CodePoint) (rest : Text) : 0 < badUrlLength (c :: rest) := by
  unfold badUrlLength
  split <;> simp_all

theorem badUrlLength_alike {t t' : Text} (h : Alike t t') (w : Text)
    (within : badUrlLength (w ++ t) ≤ w.length) :
    badUrlLength (w ++ t') = badUrlLength (w ++ t) := by
  match w with
  | [] =>
    cases t with
    | nil => rw [h.eq_nil]
    | cons c rest =>
      have pos := badUrlLength_pos c rest
      simp at within
      omega
  | c :: w =>
    by_cases closes : c = ')'
    · subst closes; simp [badUrlLength]
    have next := (h.append w).head_eq
    by_cases escape : c = '\\' ∧ (w ++ t).head? = some (.char ')')
    · obtain ⟨rfl, paren⟩ := escape
      match w with
      | [] =>
        cases t with
        | nil => simp at paren
        | cons d r =>
          obtain rfl : d = ')' := by simpa using paren
          simp [badUrlLength] at within
      | d :: w =>
        obtain rfl : d = ')' := by simpa using paren
        simp only [List.cons_append, badUrlLength, List.length_cons] at within ⊢
        rw [badUrlLength_alike h w (by omega)]
    · have also : ¬(c = '\\' ∧ (w ++ t').head? = some (.char ')')) := by rw [← next]; exact escape
      rw [List.cons_append, badUrlLength_cons closes escape, List.length_cons] at within
      rw [List.cons_append, List.cons_append, badUrlLength_cons closes escape,
        badUrlLength_cons closes also, badUrlLength_alike h w (by omega)]

/-- White space in an address reaches its end, or spoils it. -/
theorem urlBody_white {c : CodePoint} (white : isWhite c) (fuel : Nat) (rest bad : Text)
    (cut : rest.drop (rest.takeWhile isWhite).length = bad) :
    urlBody (fuel + 1) (c :: rest) =
      if bad = [] then (some [], (rest.takeWhile isWhite).length + 1, false)
      else if bad.head? = some (.char ')') then (some [], (rest.takeWhile isWhite).length + 2, true)
      else (none, (rest.takeWhile isWhite).length + 1 + badUrlLength bad, true) := by
  have closes : c ≠ ')' := by rintro rfl; simp [isWhite] at white
  simp only [urlBody, beq_iff_eq, closes, white, ↓reduceIte]
  split
  · rename_i none; simp [← cut, none]
  · rename_i paren; simp [← cut, paren]
  · rename_i present other
    have more : bad ≠ [] := by rw [← cut]; exact present
    have spoils : bad.head? ≠ some (.char ')') := by
      intro head
      obtain ⟨tail, rfl⟩ : ∃ tail, bad = .char ')' :: tail := by
        cases bad <;> simp at head more; exact ⟨_, by rw [head]⟩
      exact other _ cut
    simp [more, spoils, cut]

theorem urlBody_escape {c : CodePoint} {rest : Text} (escape : beginsEscape (c :: rest)) (fuel : Nat)
    (more : Text) (cut : rest.drop (escaped rest).2 = more) :
    urlBody (fuel + 1) (c :: rest) =
      ((urlBody fuel more).1.map ((escaped rest).1 :: ·),
        (urlBody fuel more).2.1 + (escaped rest).2 + 1, (urlBody fuel more).2.2) := by
  have slash : c = '\\' := by
    by_cases slash : c = '\\'
    · exact slash
    · simp [beginsEscape, slash] at escape
  subst slash
  simp [urlBody, isWhite, escape, ← cut]

theorem urlBody_bad {c : CodePoint} {rest : Text} (escape : ¬beginsEscape (c :: rest))
    (white : ¬isWhite c) (bad : c = '"' ∨ c = '\'' ∨ c = '(' ∨ isControl c) (fuel : Nat) :
    urlBody (fuel + 1) (c :: rest) = (none, 1 + badUrlLength rest, true) := by
  have closes : c ≠ ')' := by rintro rfl; revert bad; decide
  have marks : (c == '"' || c == '\'' || c == '(' || isControl c) = true := by
    simpa [or_assoc] using bad
  simp only [urlBody, beq_iff_eq, closes, white, escape, ↓reduceIte, Bool.false_eq_true]
  rw [if_pos marks]

theorem urlBody_plain {c : CodePoint} {rest : Text} (closes : c ≠ ')') (escape : ¬beginsEscape (c :: rest))
    (white : ¬isWhite c) (bad : ¬(c = '"' ∨ c = '\'' ∨ c = '(' ∨ isControl c)) (fuel : Nat) :
    urlBody (fuel + 1) (c :: rest) =
      ((urlBody fuel rest).1.map (c :: ·), (urlBody fuel rest).2.1 + 1, (urlBody fuel rest).2.2) := by
  have marks : ¬(c == '"' || c == '\'' || c == '(' || isControl c) = true := by
    simpa [or_assoc] using bad
  simp only [urlBody, beq_iff_eq, closes, white, escape, ↓reduceIte, Bool.false_eq_true]
  rw [if_neg marks]

theorem urlBody_length (fuel : Nat) (t : Text) : (urlBody fuel t).2.1 ≤ t.length := by
  induction fuel generalizing t with
  | zero => simp [urlBody]
  | succ fuel ih =>
    rcases t with _ | ⟨c, rest⟩
    · simp [urlBody]
    by_cases closes : c = ')'
    · simp [urlBody, closes]
    by_cases white : isWhite c
    · have run := (List.takeWhile_prefix (l := rest) isWhite).length_le
      have bad := badUrlLength_length (rest.drop (rest.takeWhile isWhite).length)
      rw [List.length_drop] at bad
      rw [urlBody_white white fuel rest _ rfl, List.length_cons]
      split
      · dsimp only; omega
      · rename_i more
        have pos := List.length_pos_iff.mpr more
        rw [List.length_drop] at pos
        split <;> (dsimp only; omega)
    by_cases escape : beginsEscape (c :: rest)
    · have bound := escaped_length rest
      have later := ih (rest.drop (escaped rest).2)
      rw [List.length_drop] at later
      rw [urlBody_escape escape fuel _ rfl, List.length_cons]
      dsimp only
      omega
    by_cases bad : c = '"' ∨ c = '\'' ∨ c = '(' ∨ isControl c
    · have later := badUrlLength_length rest
      rw [urlBody_bad escape white bad, List.length_cons]
      dsimp only
      omega
    · have later := ih rest
      rw [urlBody_plain closes escape white bad, List.length_cons]
      dsimp only
      omega

theorem urlBody_pos (fuel : Nat) (c : CodePoint) (rest : Text) :
    0 < (urlBody (fuel + 1) (c :: rest)).2.1 := by
  by_cases closes : c = ')'
  · simp [urlBody, closes]
  by_cases white : isWhite c
  · rw [urlBody_white white fuel rest _ rfl]
    split
    · exact Nat.succ_pos _
    · split
      · exact Nat.succ_pos _
      · exact Nat.add_pos_left (Nat.succ_pos _) _
  by_cases escape : beginsEscape (c :: rest)
  · rw [urlBody_escape escape fuel _ rfl]
    exact Nat.succ_pos _
  by_cases bad : c = '"' ∨ c = '\'' ∨ c = '(' ∨ isControl c
  · rw [urlBody_bad escape white bad]
    exact Nat.add_pos_left Nat.one_pos _
  · rw [urlBody_plain closes escape white bad]
    exact Nat.succ_pos _

/-- White space in an address leads to its end, or to what is read away up to the end. -/
theorem urlBody_white_alike {t t' : Text} (h : Alike t t') {c : CodePoint} (white : isWhite c) (w : Text)
    (fuel fuel' : Nat) (within : (urlBody (fuel + 1) (c :: (w ++ t))).2.1 ≤ w.length + 1) :
    urlBody (fuel' + 1) (c :: (w ++ t')) = urlBody (fuel + 1) (c :: (w ++ t)) := by
  have rest := h.append w
  have run := rest.takeWhile_eq (p := isWhite) (by decide)
  have beyond := rest.drop_takeWhile (p := isWhite) (by decide)
  have next := beyond.head_eq
  rw [urlBody_white white fuel (w ++ t) _ rfl] at within ⊢
  rw [urlBody_white white fuel' (w ++ t') _ rfl, ← run, ← next]
  by_cases ends : (w ++ t).drop ((w ++ t).takeWhile isWhite).length = []
  · rw [ends] at beyond
    rw [if_pos ends, if_pos beyond.eq_nil]
  have ends' : (w ++ t').drop ((w ++ t).takeWhile isWhite).length ≠ [] := by
    intro none
    rw [none] at beyond
    exact ends beyond.symm.eq_nil
  rw [if_neg ends] at within
  rw [if_neg ends, if_neg ends']
  by_cases paren : ((w ++ t).drop ((w ++ t).takeWhile isWhite).length).head? = some (.char ')')
  · rw [if_pos paren, if_pos paren]
  · rw [if_neg paren] at within
    rw [if_neg paren, if_neg paren]
    dsimp only at within
    have room : ((w ++ t).takeWhile isWhite).length ≤ w.length := by omega
    rw [List.drop_append_of_le_length room] at within ⊢
    rw [List.drop_append_of_le_length room, badUrlLength_alike h (w.drop _) (by rw [List.length_drop]; omega)]

theorem urlBody_alike {t t' : Text} (h : Alike t t') (w : Text) (fuel fuel' : Nat)
    (enough : (w ++ t).length ≤ fuel) (enough' : (w ++ t').length ≤ fuel')
    (within : (urlBody fuel (w ++ t)).2.1 ≤ w.length) :
    urlBody fuel' (w ++ t') = urlBody fuel (w ++ t) := by
  induction fuel generalizing w fuel' with
  | zero =>
    obtain ⟨rfl, rfl⟩ : w = [] ∧ t = [] := by simpa using enough
    rw [h.eq_nil]; cases fuel' <;> rfl
  | succ fuel ih =>
    rcases w with _ | ⟨c, w⟩
    · rcases t with _ | ⟨c, rest⟩
      · rw [h.eq_nil]; cases fuel' <;> rfl
      have pos := urlBody_pos fuel c rest
      rw [List.nil_append, List.length_nil] at within
      omega
    obtain ⟨fuel', rfl⟩ : ∃ k, fuel' = k + 1 := ⟨fuel' - 1, by simp at enough'; omega⟩
    have rest := h.append w
    have same := beginsEscape_alike (h.append (c :: w))
    simp only [List.cons_append, List.length_cons, Nat.add_le_add_iff_right] at *
    by_cases closes : c = ')'
    · simp [urlBody, closes]
    by_cases white : isWhite c
    · exact urlBody_white_alike h white w fuel fuel' within
    by_cases escape : beginsEscape (c :: (w ++ t))
    · have chars := escaped_alike rest
      rw [urlBody_escape escape fuel _ rfl] at within
      dsimp only at within
      have room : (escaped (w ++ t)).2 ≤ w.length := by omega
      have cut := @List.drop_append_of_le_length _ _ t _ room
      have cut' := @List.drop_append_of_le_length _ _ t' _ room
      rw [chars] at cut'
      rw [cut] at within
      rw [urlBody_escape escape fuel _ cut, urlBody_escape (same ▸ escape) fuel' _ cut', ← chars]
      simp only [List.length_append] at enough enough'
      rw [ih (w.drop _) fuel' (by simp; omega) (by simp; omega) (by simp; omega)]
    have unescaped : ¬beginsEscape (c :: (w ++ t')) := same ▸ escape
    by_cases bad : c = '"' ∨ c = '\'' ∨ c = '(' ∨ isControl c
    · rw [urlBody_bad escape white bad] at within
      dsimp only at within
      rw [urlBody_bad escape white bad, urlBody_bad unescaped white bad,
        badUrlLength_alike h w (by omega)]
    · rw [urlBody_plain closes escape white bad] at within
      dsimp only at within
      rw [urlBody_plain closes escape white bad, urlBody_plain closes unescaped white bad,
        ih w fuel' enough enough' (by omega)]

end ClassMigration.Stylesheet.Scanner
