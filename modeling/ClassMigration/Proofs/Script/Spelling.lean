import ClassMigration.Proofs.Script.Escapes
import ClassMigration.Quote

/-! How string literals are spelled: character by character and escape by escape. The lexer accepts between
two quotes exactly what is spelled so. -/
namespace ClassMigration.Script.Quotation

/-- `written` between two quotes stands for `value`. -/
inductive Spells (quote : CodePoint) : (written value : Text) → (octal : Bool) → Prop
  | done : Spells quote [] [] false
  | plain {c : CodePoint} {written value : Text} {octal : Bool} (notEscape : c ≠ '\\') (notQuote : c ≠ quote)
      (inLine : endsLine c = false) (rest : Spells quote written value octal) :
      Spells quote (c :: written) (c :: value) octal
  | escaped {first : CodePoint} {more written meaning value : Text} {octal octals : Bool}
      (spelled : Escape first more (written ++ [quote]) meaning octal)
      (rest : Spells quote written value octals) :
      Spells quote ('\\' :: first :: (more ++ written)) (meaning ++ value) (octal || octals)

section Spells

variable {quote : CodePoint} {written value behind : Text} {octal : Bool} {fuel : Nat} {c stop : Cursor}

theorem head?_append_cons (written : Text) (d : CodePoint) (a b : Text) :
    (written ++ d :: a).head? = (written ++ d :: b).head? := by
  cases written <;> rfl

theorem spells_of_body (read : body quote fuel c = .ok (value, octal, stop)) :
    ∃ written, c.rest = written ++ quote :: stop.rest ∧ Spells quote written value octal := by
  induction fuel generalizing c value octal with
  | zero => cases read
  | succ fuel ih =>
    rw [body] at read
    split at read
    case h_1 => cases read
    case h_2 place =>
      obtain ⟨⟨meaning, octal', next⟩, first, read⟩ := bind_eq_ok.mp read
      obtain ⟨⟨more, octals, stop'⟩, others, read⟩ := bind_eq_ok.mp read
      cases read
      obtain ⟨written, nextPlace, spells⟩ := ih others
      obtain ⟨char, inner, escapePlace, spelled⟩ := escape_cut first
      refine ⟨'\\' :: char :: (inner ++ written), ?_, .escaped (spelled.alike (.inl ?_)) spells⟩
      · have rest : c.rest.drop 1 = char :: (inner ++ next.rest) := escapePlace
        rw [place, List.drop_succ_cons, List.drop_zero] at rest
        simp [place, rest, nextPlace]
      · rw [nextPlace]
        exact head?_append_cons written quote stop.rest []
    case h_3 char rest notEscape place =>
      split at read
      case isTrue isQuote =>
        cases read
        exact ⟨[], by simp [Cursor.skip, place, eq_of_beq isQuote], .done⟩
      case isFalse notQuote =>
        split at read
        case isTrue => cases read
        case isFalse inLine =>
          obtain ⟨⟨more, octals, stop'⟩, others, read⟩ := bind_eq_ok.mp read
          cases read
          obtain ⟨written, nextPlace, spells⟩ := ih others
          refine ⟨char :: written, ?_, .plain ?_ (by simpa using notQuote) (by simpa using inLine) spells⟩
          · simpa [Cursor.skip, place] using nextPlace
          · rintro rfl
            exact notEscape rfl

theorem body_quote (fuel : Nat) (notEscape : quote ≠ '\\') (place : c.rest = quote :: behind) :
    body quote (fuel + 1) c = .ok ([], false, c.skip 1) := by
  rw [body, place]
  split
  case h_1 same => cases same
  case h_2 same => cases same; exact absurd rfl notEscape
  case h_3 same => cases same; simp

theorem body_plain {char : CodePoint} (fuel : Nat) (notEscape : char ≠ '\\') (notQuote : char ≠ quote)
    (inLine : endsLine char = false) (place : c.rest = char :: behind) :
    body quote (fuel + 1) c = (do
      let (more, octals, stop) ← body quote fuel (c.skip 1)
      return (char :: more, octals, stop)) := by
  rw [body, place]
  split
  case h_1 same => cases same
  case h_2 same => cases same; exact absurd rfl notEscape
  case h_3 same => cases same; simp [notQuote, inLine]

theorem body_escape (fuel : Nat) (place : c.rest = .char '\\' :: behind) :
    body quote (fuel + 1) c = (do
      let (meaning, octal, next) ← escape (c.skip 1)
      let (more, octals, stop) ← body quote fuel next
      return (meaning ++ more, octal || octals, stop)) := by
  rw [body, place]
  rfl

theorem body_of_spells (notEscape : quote ≠ '\\') (spells : Spells quote written value octal)
    (long : written.length < fuel) (place : c.rest = written ++ quote :: behind) :
    ∃ stop, body quote fuel c = .ok (value, octal, stop) ∧ stop.rest = behind := by
  induction spells generalizing fuel c with
  | done =>
    cases fuel with
    | zero => cases long
    | succ fuel => exact ⟨_, body_quote fuel notEscape place, by simp [Cursor.skip, place]⟩
  | plain notEscape notQuote inLine rest ih =>
    cases fuel with
    | zero => cases long
    | succ fuel =>
      obtain ⟨stop, read, atStop⟩ := ih (Nat.lt_of_succ_lt_succ long)
        (show (c.skip 1).rest = _ by rw [Cursor.skip, place]; rfl)
      refine ⟨stop, ?_, atStop⟩
      rw [body_plain fuel notEscape notQuote inLine place, read]
      rfl
  | @escaped first more written meaning value octal octals spelled rest ih =>
    cases fuel with
    | zero => cases long
    | succ fuel =>
      have escapePlace : (c.skip 1).rest = first :: (more ++ (written ++ quote :: behind)) := by
        simp [Cursor.skip, place]
      obtain ⟨next, escapeRead, atNext⟩ :=
        spelled.reads (c.skip 1) _ escapePlace (.inl (head?_append_cons written quote [] behind))
      simp only [List.length_cons, List.length_append] at long
      have shorter : written.length < fuel := by omega
      obtain ⟨stop, read, atStop⟩ := ih shorter atNext
      refine ⟨stop, ?_, atStop⟩
      rw [body_escape fuel place, escapeRead]
      show (do
        let (more, octals, stop) ← body quote fuel next
        return (meaning ++ more, octal || octals, stop)) = _
      rw [read]
      rfl

end Spells

/-- The lexer takes the whole text as one string in the quote, and the string stands for the value. -/
def Denotes (quote : Quote) (written value : Text) (octal : Bool) : Prop :=
  written.head? = some quote.mark ∧ ∃ stop, stop.rest = [] ∧
    Lexer.lexeme written.length [] (Cursor.ofSource written) = .ok (.string value written octal, [], stop)

section Denotes

variable {quote : Quote} {written value : Text} {octal : Bool}

theorem mark_ne_backslash (quote : Quote) : quote.mark ≠ '\\' := by
  cases quote <;> decide

theorem lexeme_string {fuel : Nat} {braces : List Brace} {c : Cursor} {rest : Text}
    (place : c.rest = quote.mark :: rest) :
    Lexer.lexeme fuel braces c =
      (read fuel quote.mark c).map fun (lexeme, stop) => (lexeme, braces, stop) := by
  have noName : beginsName quote.mark = false := by cases quote <;> decide +kernel
  have isQuote : (quote.mark == '\'' || quote.mark == '"') = true := by cases quote <;> rfl
  unfold Lexer.lexeme
  rw [place]
  simp [noName, isQuote]

theorem lexeme_string_ok {fuel : Nat} {braces : List Brace} {c stop : Cursor} {rest : Text}
    (place : c.rest = quote.mark :: rest) :
    Lexer.lexeme fuel braces c = .ok (.string value written octal, braces, stop) ↔
      body quote.mark fuel (c.skip 1) = .ok (value, octal, stop) ∧
        c.rest.take (stop.index - c.index) = written := by
  rw [lexeme_string place, read]
  cases body quote.mark fuel (c.skip 1) with
  | error fault => simp [bind, Except.bind, Except.map]
  | ok made =>
    obtain ⟨value', octal', stop'⟩ := made
    simp only [bind, Except.bind, pure, Except.pure, Except.map, Except.ok.injEq, Prod.mk.injEq,
      Lexeme.string.injEq]
    constructor
    · rintro ⟨⟨rfl, rfl, rfl⟩, -, rfl⟩
      exact ⟨⟨rfl, rfl, rfl⟩, rfl⟩
    · rintro ⟨⟨rfl, rfl, rfl⟩, rfl⟩
      exact ⟨⟨rfl, rfl, rfl⟩, trivial, rfl⟩

theorem denotes_iff : Denotes quote written value octal ↔
    ∃ inner, written = quote.mark :: (inner ++ [quote.mark]) ∧ Spells quote.mark inner value octal := by
  constructor
  · rintro ⟨opens, stop, atEnd, taken⟩
    obtain ⟨rest, rfl⟩ : ∃ rest, written = quote.mark :: rest := by
      cases written with
      | nil => cases opens
      | cons c rest => exact ⟨rest, by simpa using opens⟩
    obtain ⟨read, -⟩ := (lexeme_string_ok rfl).mp taken
    obtain ⟨inner, place, spells⟩ := spells_of_body read
    have same : rest = inner ++ [quote.mark] := by simpa [Cursor.skip, Cursor.ofSource, atEnd] using place
    exact ⟨inner, by rw [same], spells⟩
  · rintro ⟨inner, rfl, spells⟩
    have place : ((Cursor.ofSource (quote.mark :: (inner ++ [quote.mark]))).skip 1).rest =
        inner ++ quote.mark :: [] := rfl
    obtain ⟨stop, read, atStop⟩ := body_of_spells (mark_ne_backslash quote) spells
      (show inner.length < (quote.mark :: (inner ++ [quote.mark])).length by
        rw [List.length_cons, List.length_append]; omega) place
    refine ⟨rfl, stop, atStop, (lexeme_string_ok rfl).mpr ⟨read, ?_⟩⟩
    -- the reader stands behind all characters, so it has taken all of them
    obtain ⟨n, index, behind⟩ := body_onward read
    rw [place] at behind
    have all : inner.length + 1 ≤ n := by
      have empty := congrArg List.length (behind.symm.trans atStop)
      simp at empty
      omega
    simp only [Cursor.ofSource, Cursor.skip] at index ⊢
    exact List.take_of_length_le (by simp; omega)

end Denotes

end ClassMigration.Script.Quotation
