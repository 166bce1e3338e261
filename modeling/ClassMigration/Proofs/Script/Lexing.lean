import ClassMigration.Proofs.Script.Onward
import ClassMigration.Script.Lexer
import ClassMigration.Script.RegExp
import ClassMigration.Script.Tree

/-! What the lexer takes from the script. A token ends where the cursor goes on, a punctuator is what stands
at its place, and a chunk's text is what stands between its delimiters. -/
namespace ClassMigration.Script

open Cursor (Onward)

def Lexeme.isPlain : Lexeme → Bool
  | .string .. | .punctuator _ | .chunk .. | .tagName _ => false
  | _ => true

namespace Word

theorem escaped_onward {allowed : CodePoint → Bool} {c c' : Cursor} {char : CodePoint}
    (read : escaped allowed c = .ok (char, c')) : Onward c c' := by
  unfold escaped at read
  split at read
  · split at read
    · cases read; exact .skip _ _
    · cases read
  · split at read
    · dsimp only at read
      split at read
      · cases read; exact .skip _ _
      · cases read
    · cases read
  · cases read

theorem continued_onward {fuel : Nat} {c c' : Cursor} {text : Text}
    (read : continued fuel c = .ok (text, c')) : Onward c c' := by
  induction fuel generalizing c text with
  | zero => cases read
  | succ fuel ih =>
    rw [continued] at read
    split at read
    · cases read; exact .refl _
    · obtain ⟨⟨char, next⟩, first, read⟩ := bind_eq_ok.mp read
      obtain ⟨⟨more, stop⟩, others, read⟩ := bind_eq_ok.mp read
      cases read
      exact (escaped_onward first).trans (ih others)
    · split at read
      · obtain ⟨⟨more, stop⟩, others, read⟩ := bind_eq_ok.mp read
        cases read
        exact (Onward.skip c 1).trans (ih others)
      · cases read; exact .refl _

theorem ofWord_isPlain (word : Text) : (Lexeme.ofWord word).isPlain = true := by
  unfold Lexeme.ofWord
  repeat' split
  all_goals rfl

theorem read_onward {fuel : Nat} {c c' : Cursor} {lexeme : Lexeme}
    (read : read fuel c = .ok (lexeme, c')) : Onward c c' ∧ lexeme.isPlain = true := by
  unfold Word.read at read
  extract_lets finish at read
  have finished : ∀ {first next}, Onward c next → finish (first, next) = .ok (lexeme, c') →
      Onward c c' ∧ lexeme.isPlain = true := by
    intro first next on read
    obtain ⟨⟨more, stop⟩, others, read⟩ := bind_eq_ok.mp read
    have word := ofWord_isPlain (first :: more)
    dsimp only at read
    split at read
    · cases read
      exact ⟨on.trans (continued_onward others), rfl⟩
    · split at read
      · cases read
        exact ⟨on.trans (continued_onward others), word⟩
      · cases read
  split at read
  · obtain ⟨⟨first, next⟩, begins, read⟩ := bind_eq_ok.mp read
    exact finished (escaped_onward begins) read
  · exact finished (.skip _ _) read
  · cases read

end Word

namespace Quotation

theorem escape_onward {c c' : Cursor} {text : Text} {octal : Bool}
    (read : escape c = .ok (text, octal, c')) : Onward c c' := by
  revert read
  fun_cases escape c
  case case10 rest begins =>
    intro read
    cases read
    exact Onward.front [.char '\r', .char '\n'] begins _
  case case13 char rest _ _ _ _ _ _ begins _ _ _ =>
    intro read
    cases read
    exact Onward.front [char] begins _
  all_goals
    intro read
    cases read
  all_goals exact .skip _ _

theorem body_onward {quote : CodePoint} {fuel : Nat} {c c' : Cursor} {text : Text} {octal : Bool}
    (read : body quote fuel c = .ok (text, octal, c')) : Onward c c' := by
  induction fuel generalizing c text octal with
  | zero => cases read
  | succ fuel ih =>
    rw [body] at read
    split at read
    · cases read
    · obtain ⟨⟨value, octal', next⟩, first, read⟩ := bind_eq_ok.mp read
      obtain ⟨⟨more, octals, stop⟩, others, read⟩ := bind_eq_ok.mp read
      cases read
      exact ((Onward.skip c 1).trans (escape_onward first)).trans (ih others)
    · split at read
      · cases read; exact .skip _ _
      · split at read
        · cases read
        · obtain ⟨⟨more, octals, stop⟩, others, read⟩ := bind_eq_ok.mp read
          cases read
          exact (Onward.skip c 1).trans (ih others)

/-- Of a string at least its opening quote is written. -/
theorem read_onward {fuel : Nat} {quote : CodePoint} {c c' : Cursor} {lexeme : Lexeme}
    (read : read fuel quote c = .ok (lexeme, c')) : Onward c c' ∧ ∃ value written octal,
      lexeme = .string value written octal ∧ (c.rest ≠ [] → written ≠ []) := by
  obtain ⟨⟨value, octal, stop⟩, inner, read⟩ := bind_eq_ok.mp read
  cases read
  have on := body_onward inner
  refine ⟨(Onward.skip c 1).trans on, value, _, octal, rfl, fun some none => ?_⟩
  have further : c.index + 1 ≤ c'.index := on.le
  rcases List.take_eq_nil_iff.mp none with short | empty
  · omega
  · exact some empty

theorem chunkEscape_onward {c c' : Cursor} (read : chunkEscape c = .ok c') : Onward c c' := by
  revert read
  fun_cases chunkEscape c
  case case9 rest begins =>
    intro read
    cases read
    exact Onward.front [.char '\r', .char '\n'] begins _
  case case11 char rest _ _ _ _ _ begins _ _ =>
    intro read
    cases read
    exact Onward.front [char] begins _
  all_goals
    intro read
    cases read
  all_goals exact .skip _ _

def delimiter (closes : Bool) : Text := if closes then [.char '\x60'] else [.char '$', .char '\x7b']

/-- A chunk's text ends at a delimiter. -/
theorem chunkEnd_onward {fuel : Nat} {c c' : Cursor} {closes : Bool}
    (read : chunkEnd fuel c = .ok (closes, c')) : Onward c c' ∧ delimiter closes <+: c'.rest := by
  induction fuel generalizing c with
  | zero => cases read
  | succ fuel ih =>
    rw [chunkEnd] at read
    split at read
    · cases read
    · rename_i rest begins
      cases read
      exact ⟨.refl _, rest, begins.symm⟩
    · rename_i rest begins
      cases read
      exact ⟨.refl _, rest, begins.symm⟩
    · obtain ⟨next, escape, read⟩ := bind_eq_ok.mp read
      obtain ⟨on, ends⟩ := ih read
      exact ⟨((Onward.skip c 1).trans (chunkEscape_onward escape)).trans on, ends⟩
    · rename_i rest begins
      obtain ⟨on, ends⟩ := ih read
      exact ⟨(Onward.front [.char '\r', .char '\n'] begins _).trans on, ends⟩
    · rename_i char rest _ _ _ _ begins
      obtain ⟨on, ends⟩ := ih read
      exact ⟨(Onward.front [char] begins _).trans on, ends⟩

theorem readChunk_onward {fuel : Nat} {c c' : Cursor} {lexeme : Lexeme}
    (read : readChunk fuel c = .ok (lexeme, c')) : Onward c c' ∧ ∃ raw opens closes more,
      lexeme = .chunk raw opens closes ∧ c.rest.drop 1 = raw ++ (delimiter closes ++ more) ∧
      c'.index = c.index + 1 + raw.length + (delimiter closes).length := by
  obtain ⟨⟨closes, stop⟩, inner, read⟩ := bind_eq_ok.mp read
  cases read
  obtain ⟨on, more, ends⟩ := chunkEnd_onward inner
  refine ⟨((Onward.skip c 1).trans on).trans (.skip _ _), _, _, closes, more, rfl, ?_, ?_⟩
  all_goals
    obtain ⟨n, index, rest⟩ := on
    have taken : stop.index - (c.skip 1).index = n := by omega
    rw [taken]
  · rw [ends, rest]
    exact (List.take_append_drop n _).symm
  · have short : n ≤ (c.skip 1).rest.length := by
      refine Nat.le_of_not_lt fun long => ?_
      rw [List.drop_of_length_le (Nat.le_of_lt long)] at rest
      rw [rest] at ends
      cases closes <;> simp [delimiter] at ends
    rw [List.length_take, Nat.min_eq_left short]
    cases closes <;> simp only [Cursor.skip, delimiter] at index ⊢ <;> simp <;> omega

end Quotation

namespace Number

theorem inBase_onward {base opening : Nat} {isDigit forbidden : CodePoint → Bool} {octal : Bool}
    {c c' : Cursor} {lexeme : Lexeme} (read : inBase base isDigit forbidden opening octal c = .ok (lexeme, c')) :
    Onward c c' ∧ lexeme.isPlain = true := by
  unfold inBase at read
  dsimp only at read
  split at read
  · cases read
  · cases read
    exact ⟨.skip _ _, rfl⟩

theorem inDecimal_onward {c c' : Cursor} {lexeme : Lexeme} (read : inDecimal c = .ok (lexeme, c')) :
    Onward c c' ∧ lexeme.isPlain = true := by
  unfold inDecimal at read
  extract_lets whole afterWhole fraction afterFraction exponent at read
  obtain ⟨digits, -, read⟩ := bind_eq_ok.mp read
  extract_lets stop finish at read
  split at read
  · cases read
  · obtain ⟨made, rfl⟩ := Prod.mk.inj (Except.ok.inj read)
    rw [← made]
    exact ⟨((Onward.skip _ _).trans (.skip _ _)).trans (.skip _ _), rfl⟩

theorem read_onward {c c' : Cursor} {lexeme : Lexeme} (read : read c = .ok (lexeme, c')) :
    Onward c c' ∧ lexeme.isPlain = true := by
  unfold Number.read at read
  split at read
  · dsimp only at read
    repeat' split at read
    all_goals first
      | exact inBase_onward read
      | exact inDecimal_onward read
  · exact inDecimal_onward read

end Number

structure Taken (start : Cursor) (token : Token) (stop : Cursor) : Prop where
  onward : Onward start stop
  begins : token.start = start.index
  ends : token.stop = stop.index
  written {value written octal} : token.lexeme = .string value written octal → written ≠ []
  mark {mark} : token.lexeme = .punctuator mark → mark <+: start.rest
  chunk {raw opens closes} : token.lexeme = .chunk raw opens closes → ∃ (opening : CodePoint) (more : Text),
    (opening = '\x60' ∨ opening = '\x7d') ∧
    start.rest = opening :: (raw ++ (Quotation.delimiter closes ++ more)) ∧
    stop.index = start.index + 1 + raw.length + (Quotation.delimiter closes).length

namespace Lexer

variable {fuel : Nat} {braces braces' : List Brace} {c c' : Cursor} {lexeme : Lexeme}

theorem punctuator_onward (read : punctuator braces c = .ok (lexeme, braces', c')) :
    Onward c c' ∧ ∃ mark, lexeme = .punctuator mark ∧ mark <+: c.rest := by
  unfold punctuator at read
  split at read
  · cases read
  · rename_i mark found
    cases read
    exact ⟨.skip _ _, mark, rfl, Text.startsWith_iff.mp (List.find?_some found)⟩

theorem readChunk_of_chunk (read : chunk fuel braces c = .ok (lexeme, braces', c')) :
    Quotation.readChunk fuel c = .ok (lexeme, c') := by
  obtain ⟨⟨made, stop⟩, inner, read⟩ := bind_eq_ok.mp read
  cases read
  exact inner

/-- Beside the braces a reading of the lexer keeps what it has read. -/
theorem read_of_map {read : Except Fault (Lexeme × Cursor)} {before : List Brace} {lexeme : Lexeme}
    (kept : (read.map fun (lexeme, stop) => (lexeme, before, stop)) = .ok (lexeme, braces', c')) :
    read = .ok (lexeme, c') := by
  cases read with
  | error fault => cases kept
  | ok made => cases kept; rfl

theorem token_taken {token : Token} (read : Lexer.token fuel braces c = .ok (token, braces', c')) :
    Taken c token c' := by
  obtain ⟨⟨lexeme, braces, stop⟩, inner, read⟩ := bind_eq_ok.mp read
  cases read
  have soft : Onward c c' → lexeme.isPlain = true → Taken c ⟨lexeme, c.index, c'.index, c'.line⟩ c' := by
    intro on soft
    refine ⟨on, rfl, rfl, ?_, ?_, ?_⟩
    · rintro value written octal rfl
      cases soft
    · rintro mark rfl
      cases soft
    · rintro raw opens closes rfl
      cases soft
  unfold Lexer.lexeme at inner
  dsimp only at inner
  split at inner
  · cases inner
    exact soft (.refl _) rfl
  · rename_i char rest begins
    split at inner
    · obtain ⟨on, word⟩ := Word.read_onward (read_of_map inner)
      exact soft on word
    split at inner
    · obtain ⟨on, value, written, octal, rfl, filled⟩ := Quotation.read_onward (read_of_map inner)
      refine ⟨on, rfl, rfl, ?_, (fun same => by cases same), (fun same => by cases same)⟩
      rintro value written octal same rfl
      cases same
      exact filled (by simp [begins]) rfl
    split at inner
    · obtain ⟨on, number⟩ := Number.read_onward (read_of_map inner)
      exact soft on number
    split at inner
    · rename_i opens
      obtain ⟨on, raw, front, closes, more, rfl, text, length⟩ :=
        Quotation.readChunk_onward (readChunk_of_chunk inner)
      refine ⟨on, rfl, rfl, (fun same => by cases same), (fun same => by cases same), ?_⟩
      intro raw opens closes same
      cases same
      refine ⟨char, more, ?_, ?_, length⟩
      · simp only [Bool.or_eq_true, beq_iff_eq, Bool.and_eq_true] at opens
        exact opens.imp id And.left
      · rw [begins] at text ⊢
        rw [← text]
        rfl
    · obtain ⟨on, mark, rfl, stands⟩ := punctuator_onward inner
      refine ⟨on, rfl, rfl, (fun same => by cases same), ?_, (fun same => by cases same)⟩
      intro mark same
      cases same
      exact stands

end Lexer

theorem RegExp.read_onward {c c' : Cursor} (read : RegExp.read c = .ok c') : Onward c c' := by
  unfold RegExp.read at read
  dsimp only at read
  split at read
  · cases read
  · split at read
    · cases read
    · split at read
      · cases read
        exact (((Onward.skip _ _).trans (.skip _ _)).trans (.skip _ _))
      · cases read

end ClassMigration.Script
