import ClassMigration.Proofs.Script.Lexing

/-! Escapes in string literals. The lexer reads an escape the same in front of every text that cannot go on
with it, and no escape of more than one character holds a quote, a backslash or an ampersand. -/
namespace ClassMigration.Script.Quotation

/-- A character that ends every escape in front of it. -/
def Closes (c : CodePoint) : Prop := Text.isOctalDigit c = false ∧ c ≠ '\n'

/-- Two texts are the same to an escape in front of them. -/
def Alike (a b : Text) : Prop :=
  a.head? = b.head? ∨ (∀ c ∈ a.head?, Closes c) ∧ ∀ c ∈ b.head?, Closes c

/-- What an escape may hold behind its first character: no backslash, no quote and no ampersand. -/
def Inner (c : CodePoint) : Prop := c ≠ '\\' ∧ c ≠ '\'' ∧ c ≠ '"' ∧ c ≠ '&'

instance : DecidablePred Inner := fun _ => inferInstanceAs (Decidable (_ ∧ _ ∧ _ ∧ _))

theorem Alike.notOctal {a b : Text} (alike : Alike a b) (closes : ∀ c ∈ a.head?, Text.isOctalDigit c = false) :
    ∀ c ∈ b.head?, Text.isOctalDigit c = false := by
  rcases alike with same | ⟨-, others⟩
  · rwa [← same]
  · exact fun c mem => (others c mem).1

theorem inner_of_isHexDigit {c : CodePoint} (digit : Text.isHexDigit c) : Inner c := by
  refine ⟨?_, ?_, ?_, ?_⟩ <;> rintro rfl <;> revert digit <;> decide

theorem inner_of_isOctalDigit {c : CodePoint} (digit : Text.isOctalDigit c) : Inner c := by
  refine ⟨?_, ?_, ?_, ?_⟩ <;> rintro rfl <;> revert digit <;> decide

theorem hexDigits?_cut {count value code : Nat} {rest : Text}
    (read : hexDigits? count value rest = some code) :
    ∃ digits behind, rest = digits ++ behind ∧ digits.length = count ∧
      (∀ d ∈ digits, Text.isHexDigit d) ∧
      ∀ behind', hexDigits? count value (digits ++ behind') = some code := by
  induction count generalizing value rest with
  | zero => exact ⟨[], rest, rfl, rfl, by simp, fun _ => by rw [← read]; simp [hexDigits?]⟩
  | succ count ih =>
    cases rest with
    | nil => cases read
    | cons c rest =>
      cases digit : Text.digitValue? c with
      | none => simp [hexDigits?, digit] at read
      | some d =>
        simp only [hexDigits?, digit] at read
        obtain ⟨digits, behind, rfl, rfl, hex, same⟩ := ih read
        refine ⟨c :: digits, behind, rfl, rfl, ?_, ?_⟩
        · exact List.forall_mem_cons.mpr ⟨by simp [Text.isHexDigit, digit], hex⟩
        · intro behind'
          simp only [List.cons_append, hexDigits?, digit]
          exact same behind'

theorem bracedCode?_cut {rest : Text} {code count : Nat} (read : bracedCode? rest = some (code, count)) :
    ∃ digits behind, rest = digits ++ .char '\x7d' :: behind ∧ digits.length + 1 = count ∧
      (∀ d ∈ digits, Text.isHexDigit d) ∧
      ∀ behind', bracedCode? (digits ++ .char '\x7d' :: behind') = some (code, count) := by
  have whole := List.takeWhile_append_dropWhile (p := Text.isHexDigit) (l := rest)
  have hex : ∀ d ∈ rest.takeWhile Text.isHexDigit, Text.isHexDigit d := List.all_eq_true.mp List.all_takeWhile
  unfold bracedCode? at read
  generalize rest.takeWhile Text.isHexDigit = digits at *
  simp only [Option.ite_none_right_eq_some, Bool.and_eq_true, Option.some.injEq, Prod.mk.injEq] at read
  obtain ⟨⟨⟨some, small⟩, brace⟩, rfl, rfl⟩ := read
  obtain ⟨behind, rfl⟩ : ∃ behind, rest = digits ++ .char '\x7d' :: behind := by
    rw [← whole] at brace ⊢
    cases after : rest.dropWhile Text.isHexDigit with
    | nil => simp [after] at brace
    | cons c behind => exact ⟨behind, by simpa [after] using brace⟩
  refine ⟨digits, behind, rfl, rfl, hex, fun behind' => ?_⟩
  have run : (digits ++ .char '\x7d' :: behind').takeWhile Text.isHexDigit = digits := by
    rw [List.takeWhile_append_of_pos hex]
    simp [show Text.isHexDigit '\x7d' = false by decide]
  simp only [bracedCode?, run, some, small]
  simp

section Octal

variable {first second third : CodePoint} {rest behind : Text} {code count : Nat} {octal : Bool}

theorem octalCode_one (first : CodePoint) (closes : ∀ c ∈ rest.head?, Text.isOctalDigit c = false) :
    octalCode first rest = (first.toNat - 48, first != '0', 0) := by
  match rest with
  | [] => rfl
  | [second] => simp [octalCode, closes second rfl]
  | second :: third :: rest => simp [octalCode, closes second rfl]

theorem octalCode_two (digit : Text.isOctalDigit second)
    (closes : first ≤ '3' → ∀ c ∈ rest.head?, Text.isOctalDigit c = false) :
    octalCode first (second :: rest) = ((first.toNat - 48) * 8 + (second.toNat - 48), true, 1) := by
  cases rest with
  | nil => simp [octalCode, digit]
  | cons third rest =>
    have refused : (first ≤ '3' && Text.isOctalDigit third) = false := by
      by_cases low : first ≤ '3'
      · simp [closes low third rfl]
      · simp [low]
    simp only [octalCode, digit, refused]
    simp

theorem octalCode_three (low : first ≤ '3') (digit : Text.isOctalDigit second) (digit' : Text.isOctalDigit third) :
    octalCode first (second :: third :: rest) =
      (((first.toNat - 48) * 8 + (second.toNat - 48)) * 8 + (third.toNat - 48), true, 2) := by
  simp [octalCode, digit, digit', low]

theorem octalCode_cut (read : octalCode first rest = (code, octal, count)) :
    ∃ digits behind, rest = digits ++ behind ∧ digits.length = count ∧ (∀ d ∈ digits, Text.isOctalDigit d) ∧
      ∀ behind', Alike behind behind' → octalCode first (digits ++ behind') = (code, octal, count) := by
  by_cases none : ∀ c ∈ rest.head?, Text.isOctalDigit c = false
  · rw [octalCode_one first none] at read
    cases read
    exact ⟨[], rest, rfl, rfl, by simp, fun _ alike => octalCode_one first (alike.notOctal none)⟩
  · obtain ⟨second, rest, rfl, digit⟩ : ∃ second more, rest = second :: more ∧ Text.isOctalDigit second := by
      cases rest with
      | nil => simp at none
      | cons second rest => exact ⟨second, rest, rfl, by simpa using none⟩
    by_cases one : first ≤ '3' → ∀ c ∈ rest.head?, Text.isOctalDigit c = false
    · rw [octalCode_two digit one] at read
      cases read
      refine ⟨[second], rest, rfl, rfl, by simpa using digit, fun behind' alike => ?_⟩
      exact octalCode_two digit fun low => alike.notOctal (one low)
    · obtain ⟨low, third, rest, rfl, digit'⟩ : first ≤ '3' ∧
          ∃ third more, rest = third :: more ∧ Text.isOctalDigit third := by
        cases rest with
        | nil => simp at one
        | cons third rest =>
          have := by simpa using one
          exact ⟨this.1, third, rest, rfl, this.2⟩
      rw [octalCode_three low digit digit'] at read
      cases read
      refine ⟨[second, third], rest, rfl, rfl, by simp [digit, digit'], fun behind' _ => ?_⟩
      exact octalCode_three low digit digit'

end Octal

/-- `first` and `more` after a backslash stand for `meaning` in front of `behind`. -/
structure Escape (first : CodePoint) (more behind meaning : Text) (octal : Bool) : Prop where
  inner : ∀ c ∈ more, Inner c
  reads : ∀ (c : Cursor) (behind' : Text), c.rest = first :: (more ++ behind') → Alike behind behind' →
    ∃ next, escape c = .ok (meaning, octal, next) ∧ next.rest = behind'

section Escape

variable {first : CodePoint} {more behind behind' meaning : Text} {octal : Bool} {c next : Cursor} {rest : Text}

theorem Alike.trans {a b d : Text} (first : Alike a b) (second : Alike b d) : Alike a d := by
  rcases first with same | ⟨closes, closes'⟩
  · rwa [Alike, same]
  · rcases second with same | ⟨-, others⟩
    · exact .inr ⟨closes, same ▸ closes'⟩
    · exact .inr ⟨closes, others⟩

/-- In front of another text that is the same to it an escape means the same. -/
theorem Escape.alike (spelled : Escape first more behind meaning octal) (alike : Alike behind behind') :
    Escape first more behind' meaning octal where
  inner := spelled.inner
  reads c behind'' place others := spelled.reads c behind'' place (alike.trans others)

/-- The first characters after which an escape is read in a way of their own. -/
def opensEscape (first : CodePoint) (rest : Text) : Prop :=
  first = 'u' ∨ first = 'x' ∨ first = '8' ∨ first = '9' ∨ first = '\r' ∧ rest.head? = some (.char '\n')

theorem escape_other (place : c.rest = first :: rest) (other : ¬opensEscape first rest) :
    escape c = match controlOf? first with
      | some control => .ok ([control], false, c.skip 1)
      | none =>
        if Text.isOctalDigit first then
          let (code, octal, count) := octalCode first rest
          .ok ([CodePoint.ofNat code], octal, c.skip (1 + count))
        else if endsLine first then .ok ([], false, ⟨rest, c.index + 1, c.line + 1⟩)
        else .ok ([first], false, c.skip 1) := by
  simp only [opensEscape, not_or, not_and] at other
  obtain ⟨notU, notX, not8, not9, notBreak⟩ := other
  unfold escape
  rw [place]
  split
  case h_1 same => cases same
  case h_2 same => cases same; exact absurd rfl notU
  case h_3 same => cases same; exact absurd rfl notU
  case h_4 same => cases same; exact absurd rfl notX
  case h_5 same => cases same; exact absurd rfl not8
  case h_6 same => cases same; exact absurd rfl not9
  case h_7 same => cases same; exact absurd rfl (notBreak rfl)
  case h_8 same => cases same; rfl

theorem escape_braced (place : c.rest = .char 'u' :: .char '\x7b' :: rest) :
    escape c = match bracedCode? rest with
      | some (code, count) => .ok ([CodePoint.ofNat code], false, c.skip (2 + count))
      | none => .error c.illegal := by
  rw [escape, place]
  rfl

theorem escape_four (place : c.rest = .char 'u' :: rest) (bare : rest.head? ≠ some (.char '\x7b')) :
    escape c = match hexDigits? 4 0 rest with
      | some code => .ok ([CodePoint.ofNat code], false, c.skip 5)
      | none => .error c.illegal := by
  unfold escape
  rw [place]
  split
  case h_2 same => cases same; exact absurd rfl bare
  case h_3 same => cases same; rfl
  case h_8 notU _ _ _ _ same => cases same; exact absurd rfl notU
  all_goals next same => cases same

theorem escape_two (place : c.rest = .char 'x' :: rest) :
    escape c = match hexDigits? 2 0 rest with
      | some code => .ok ([CodePoint.ofNat code], false, c.skip 3)
      | none => .error (.at c.line .hexEscape) := by
  rw [escape, place]
  rfl

theorem escape_break (place : c.rest = .char '\r' :: .char '\n' :: rest) :
    escape c = .ok ([], false, ⟨rest, c.index + 2, c.line + 1⟩) := by
  rw [escape, place]
  rfl

theorem skip_escape (place : c.rest = first :: (more ++ behind)) :
    (c.skip (1 + more.length)).rest = behind := by
  rw [Cursor.skip, place, Nat.add_comm, List.drop_succ_cons, List.drop_left]

theorem Escape.of_skip (inner : ∀ c ∈ more, Inner c)
    (reads : ∀ (c : Cursor) (behind' : Text), c.rest = first :: (more ++ behind') → Alike behind behind' →
      escape c = .ok (meaning, octal, c.skip (1 + more.length))) :
    Escape first more behind meaning octal where
  inner := inner
  reads c behind' place alike := ⟨_, reads c behind' place alike, skip_escape place⟩

theorem Alike.opens (alike : Alike behind behind') (other : ¬opensEscape first behind) :
    ¬opensEscape first behind' := by
  simp only [opensEscape, not_or, not_and] at other ⊢
  obtain ⟨notU, notX, not8, not9, notBreak⟩ := other
  refine ⟨notU, notX, not8, not9, fun isReturn => ?_⟩
  rcases alike with same | ⟨-, closes⟩
  · exact same ▸ notBreak isReturn
  · exact fun feed => (closes '\n' feed).2 rfl

theorem Escape.same (other : ¬opensEscape first behind) (noControl : controlOf? first = none)
    (notOctal : Text.isOctalDigit first = false) (inLine : endsLine first = false) :
    Escape first [] behind [first] false := by
  refine .of_skip (by simp) fun c behind' place alike => ?_
  rw [escape_other place (alike.opens other), noControl, notOctal, inLine]
  rfl

/-- A character that is neither a letter nor a digit stands for itself, unless it ends a line. -/
theorem Escape.self (behind : Text) (symbol : first.isAlphanum = false) (inLine : endsLine first = false) :
    Escape first [] behind [first] false := by
  refine .same ?_ ?_ ?_ inLine
  · rintro (rfl | rfl | rfl | rfl | ⟨rfl, -⟩) <;> revert symbol inLine <;> decide
  · unfold controlOf?
    split <;> first | rfl | exact absurd symbol (by decide)
  · cases first with
    | surrogate index => simp [Text.isOctalDigit, CodePoint.le_def, CodePoint.toNat]; omega
    | char c =>
      simp only [CodePoint.isAlphanum, CodePoint.passes, Char.isAlphanum, Char.isDigit, Bool.or_eq_false_iff] at symbol
      simp [Text.isOctalDigit, CodePoint.le_def, UInt32.le_iff_toNat_le] at symbol ⊢
      omega

/-- An escape of a single character in front of every text has no other reading. -/
theorem Escape.alone {meaning' : Text} {octal' : Bool} (spelled : Escape first more behind meaning' octal')
    (own : ∀ behind, Escape first [] behind meaning octal) : more = [] ∧ meaning' = meaning ∧ octal' = octal := by
  let c : Cursor := ⟨first :: (more ++ behind), 0, 1⟩
  obtain ⟨next, read, atNext⟩ := spelled.reads c behind rfl (.inl rfl)
  obtain ⟨next', read', atNext'⟩ := (own (more ++ behind)).reads c (more ++ behind) rfl (.inl rfl)
  obtain ⟨rfl, rfl, rfl⟩ : meaning' = meaning ∧ octal' = octal ∧ next = next' := by simpa [read] using read'
  have same : more ++ behind = [] ++ behind := atNext'.symm.trans atNext
  exact ⟨List.append_cancel_right same, rfl, rfl⟩

theorem Escape.control {meant : CodePoint} (other : ¬opensEscape first behind)
    (isControl : controlOf? first = some meant) :
    Escape first [] behind [meant] false := by
  refine .of_skip (by simp) fun c behind' place alike => ?_
  rw [escape_other place (alike.opens other), isControl]
  rfl

theorem Escape.lineEnd (other : ¬opensEscape first behind) (noControl : controlOf? first = none)
    (notOctal : Text.isOctalDigit first = false) (ends : endsLine first) : Escape first [] behind [] false where
  inner := by simp
  reads := by
    intro c behind' place alike
    rw [escape_other place (alike.opens other), noControl, notOctal, ends]
    exact ⟨_, rfl, rfl⟩

theorem Escape.lineBreak (behind : Text) : Escape '\r' [.char '\n'] behind [] false where
  inner := List.forall_mem_singleton.mpr (by decide)
  reads _ _ place _ := ⟨_, escape_break place, rfl⟩

theorem Escape.octalDigits {code count : Nat} {isOctal : Bool} (digit : Text.isOctalDigit first)
    (read : octalCode first rest = (code, isOctal, count)) :
    ∃ more behind, rest = more ++ behind ∧ more.length = count ∧
      Escape first more behind [CodePoint.ofNat code] isOctal := by
  obtain ⟨digits, behind, rfl, rfl, octals, same⟩ := octalCode_cut read
  refine ⟨digits, behind, rfl, rfl, .of_skip (fun c mem => inner_of_isOctalDigit (octals c mem)) ?_⟩
  intro c behind' place alike
  have other : ¬opensEscape first (digits ++ behind') := by
    rintro (rfl | rfl | rfl | rfl | ⟨rfl, -⟩) <;> revert digit <;> decide
  have noControl : controlOf? first = none := by
    unfold controlOf?
    split <;> first | rfl | exact absurd digit (by decide)
  rw [escape_other place other, noControl, digit, same behind' alike]
  rfl

theorem Escape.braced {code count : Nat} (read : bracedCode? rest = some (code, count)) :
    ∃ more behind, .char '\x7b' :: rest = more ++ behind ∧ more.length = 1 + count ∧
      Escape 'u' more behind [CodePoint.ofNat code] false := by
  obtain ⟨digits, behind, rfl, rfl, hex, same⟩ := bracedCode?_cut read
  refine ⟨.char '\x7b' :: (digits ++ [.char '\x7d']), behind, by simp, by simp; omega,
    .of_skip ?_ fun c behind' place _ => ?_⟩
  · have brace (c : CodePoint) (mem : c = '\x7b' ∨ c = '\x7d') : Inner c := by
      rcases mem with rfl | rfl <;> decide
    simp only [List.mem_cons, List.mem_append, List.not_mem_nil, or_false]
    rintro c (first | digit | last)
    · exact brace c (.inl first)
    · exact inner_of_isHexDigit (hex c digit)
    · exact brace c (.inr last)
  · have split : c.rest = .char 'u' :: .char '\x7b' :: (digits ++ .char '\x7d' :: behind') := by simpa using place
    have long : 2 + (digits.length + 1) = 1 + (.char '\x7b' :: (digits ++ [.char '\x7d'])).length := by simp; omega
    rw [escape_braced split, same behind', ← long]

theorem Escape.four {code : Nat} (read : hexDigits? 4 0 rest = some code) :
    ∃ more behind, rest = more ++ behind ∧ more.length = 4 ∧ Escape 'u' more behind [CodePoint.ofNat code] false := by
  obtain ⟨digits, behind, rfl, long, hex, same⟩ := hexDigits?_cut read
  refine ⟨digits, behind, rfl, long, .of_skip (fun c mem => inner_of_isHexDigit (hex c mem)) ?_⟩
  intro c behind' place _
  have bare : (digits ++ behind').head? ≠ some (.char '\x7b') := by
    cases digits with
    | nil => cases long
    | cons d digits =>
      rintro first
      obtain rfl : d = '\x7b' := by simpa using first
      exact absurd (hex _ List.mem_cons_self) (by decide)
  rw [escape_four place bare, same behind', long]

theorem Escape.two {code : Nat} (read : hexDigits? 2 0 rest = some code) :
    ∃ more behind, rest = more ++ behind ∧ more.length = 2 ∧ Escape 'x' more behind [CodePoint.ofNat code] false := by
  obtain ⟨digits, behind, rfl, long, hex, same⟩ := hexDigits?_cut read
  refine ⟨digits, behind, rfl, long, .of_skip (fun c mem => inner_of_isHexDigit (hex c mem)) ?_⟩
  intro c behind' place _
  rw [escape_two place, same behind', long]

/-- Every escape that is read is spelled, up to the place where the reader goes on. -/
theorem escape_cut (read : escape c = .ok (meaning, octal, next)) :
    ∃ first more, c.rest = first :: (more ++ next.rest) ∧ Escape first more next.rest meaning octal := by
  have cut {first : CodePoint} {rest more behind : Text} {n : Nat} (place : c.rest = first :: rest)
      (split : rest = more ++ behind) (long : more.length = n)
      (spelled : Escape first more behind meaning octal) :
      ∃ first more, c.rest = first :: (more ++ (c.skip (1 + n)).rest) ∧
        Escape first more (c.skip (1 + n)).rest meaning octal := by
    subst split long
    rw [skip_escape place]
    exact ⟨first, more, place, spelled⟩
  have notOpening {char : CodePoint} {rest : Text} (notU : char = 'u' → False) (notX : char = 'x' → False)
      (not8 : char = '8' → False) (not9 : char = '9' → False)
      (notBreak : ∀ more, char = .char '\r' → rest = .char '\n' :: more → False) : ¬opensEscape char rest := by
    rintro (same | same | same | same | ⟨isReturn, feed⟩)
    · exact notU same
    · exact notX same
    · exact not8 same
    · exact not9 same
    · cases rest with
      | nil => cases feed
      | cons d rest => exact notBreak rest isReturn (by simpa using feed)
  revert read
  fun_cases escape c <;> intro read <;> cases read
  case case2 rest place code count code? =>
    obtain ⟨more, behind, split, long, spelled⟩ := Escape.braced code?
    have := cut place split long spelled
    rwa [← Nat.add_assoc] at this
  case case4 rest _ place code code? =>
    obtain ⟨more, behind, split, long, spelled⟩ := Escape.four code?
    exact cut place split long spelled
  case case6 rest place code code? =>
    obtain ⟨more, behind, split, long, spelled⟩ := Escape.two code?
    exact cut place split long spelled
  case case10 rest place => exact ⟨'\r', [.char '\n'], place, .lineBreak rest⟩
  case case11 char rest _ notU notX not8 not9 notBreak place control isControl =>
    exact cut place rfl rfl (.control (notOpening notU notX not8 not9 notBreak) isControl)
  case case12 char rest _ notU notX not8 not9 notBreak place noControl digit code count code? =>
    obtain ⟨more, behind, split, long, spelled⟩ := Escape.octalDigits digit code?
    exact cut place split long spelled
  case case13 char rest _ notU notX not8 not9 notBreak place noControl notOctal ends =>
    have other := notOpening notU notX not8 not9 notBreak
    exact ⟨char, [], place, .lineEnd other noControl (by simpa using notOctal) ends⟩
  case case14 char rest _ notU notX not8 not9 notBreak place noControl notOctal inLine =>
    have other := notOpening notU notX not8 not9 notBreak
    exact cut place rfl rfl (.same other noControl (by simpa using notOctal) (by simpa using inLine))

end Escape

end ClassMigration.Script.Quotation
