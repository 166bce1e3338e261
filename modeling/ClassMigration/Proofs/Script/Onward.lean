import ClassMigration.Script.Cursor
import ClassMigration.TemplateSlot

/-! Cursors move onward only. Every reader of blanks and comments leaves the cursor at a later place of the
same script, and the first character that it skips and that is no blank is never a closing brace. -/
namespace ClassMigration.Script

theorem bind_eq_ok {ε α β : Type} {x : Except ε α} {f : α → Except ε β} {b : β} :
    x >>= f = .ok b ↔ ∃ a, x = .ok a ∧ f a = .ok b := by
  cases x with
  | error fault => simp [bind, Except.bind]
  | ok a => simp [bind, Except.bind]

/-- From `i` on, the blanks lead to no closing brace before `j`. -/
def Clear (source : Text) (i j : Nat) : Prop :=
  Slot.afterBlanks source i < j → source[Slot.afterBlanks source i]? ≠ some (.char '\x7d')

namespace Clear

variable {source rest : Text} {c : CodePoint} {i j : Nat}

theorem self (source : Text) (i : Nat) : Clear source i i := by
  intro before
  rw [Slot.afterBlanks] at before
  omega

theorem blank (place : source.drop i = c :: rest) (isBlank : isBlank c) (clear : Clear source (i + 1) j) :
    Clear source i j := by
  have behind : source.drop (i + 1) = rest := by rw [← List.drop_drop, place]; rfl
  have same : Slot.afterBlanks source i = Slot.afterBlanks source (i + 1) := by
    rw [Slot.afterBlanks, Slot.afterBlanks, place, behind, List.takeWhile_cons_of_pos isBlank]
    simp only [List.length_cons]
    omega
  rw [Clear, same]
  exact clear

theorem other (place : source.drop i = c :: rest) (solid : isBlank c = false) (noBrace : c ≠ '\x7d') :
    Clear source i j := by
  have here : Slot.afterBlanks source i = i := by
    rw [Slot.afterBlanks, place, List.takeWhile_cons_of_neg (by simp [solid])]
    rfl
  intro _
  have found : source[i]? = some c := by
    rw [← List.head?_drop, place]
    rfl
  rw [here, found]
  simpa using noBrace

end Clear

namespace Cursor

def At (source : Text) (c : Cursor) : Prop := c.rest = source.drop c.index

/-- The second cursor stands at the same place or later. -/
def Onward (c c' : Cursor) : Prop := ∃ n, c'.index = c.index + n ∧ c'.rest = c.rest.drop n

variable {source rest : Text} {c c' c'' : Cursor}

namespace Onward

theorem refl (c : Cursor) : Onward c c := ⟨0, by simp, by simp⟩

theorem trans (h : Onward c c') (h' : Onward c' c'') : Onward c c'' := by
  obtain ⟨n, index, rest⟩ := h
  obtain ⟨m, index', rest'⟩ := h'
  exact ⟨n + m, by omega, by rw [rest', rest, List.drop_drop]⟩

theorem skip (c : Cursor) (n : Nat) : Onward c (c.skip n) := ⟨n, rfl, rfl⟩

theorem front (w : Text) (split : c.rest = w ++ rest) (line : Nat) :
    Onward c ⟨rest, c.index + w.length, line⟩ := ⟨w.length, rfl, by simp [split]⟩

theorem le (h : Onward c c') : c.index ≤ c'.index := by
  obtain ⟨n, index, -⟩ := h
  omega

theorem place (h : Onward c c') (place : c.At source) : c'.At source := by
  obtain ⟨n, index, rest⟩ := h
  rw [At, rest, index, place, List.drop_drop]

end Onward

theorem afterLine_onward (rest : Text) (index line line' : Nat) :
    Onward ⟨rest, index, line'⟩ (afterLine rest index line) := by
  fun_induction afterLine rest index line generalizing line' with
  | case1 => exact .refl _
  | case2 => exact Onward.front [.char '\r', .char '\n'] rfl _
  | case3 char rest index line => exact Onward.front [char] rfl _
  | case4 char rest index line _ _ ih => exact (Onward.front [char] rfl line).trans (ih _)

theorem afterBlock_onward {rest : Text} {index line : Nat} (line' : Nat)
    (read : afterBlock rest index line = .ok c) : Onward ⟨rest, index, line'⟩ c := by
  fun_induction afterBlock rest index line generalizing line' with
  | case1 => cases read
  | case2 =>
    cases read
    exact Onward.front [.char '*', .char '/'] rfl _
  | case3 rest index line ih => exact (Onward.front [.char '\r', .char '\n'] rfl line).trans (ih _ read)
  | case4 char rest index line _ _ ih => exact (Onward.front [char] rfl line).trans (ih _ read)

/-- Skipping blanks and comments moves onward, and shows no closing brace. -/
theorem skipBlanks_onward {opening fresh : Bool} {fuel : Nat}
    (read : skipBlanks opening fuel fresh c = .ok c') (place : c.At source) :
    Onward c c' ∧ Clear source c.index c'.index := by
  fun_induction skipBlanks opening fuel fresh c with
  | case1 => cases read
  | case2 => cases read; exact ⟨.refl _, .self _ _⟩
  | case3 fuel _ c rest begins ih =>
    have moved := (Onward.front [.char '/', .char '/'] begins c.line).trans
      (afterLine_onward rest (c.index + 2) c.line c.line)
    have on := (ih read (moved.place place)).1
    exact ⟨moved.trans on, .other (place.symm.trans begins) rfl (by decide)⟩
  | case4 fuel _ c rest begins ih =>
    obtain ⟨next, block, read⟩ := bind_eq_ok.mp read
    have moved := (Onward.front [.char '/', .char '*'] begins c.line).trans (afterBlock_onward c.line block)
    have on := (ih next read (moved.place place)).1
    exact ⟨moved.trans on, .other (place.symm.trans begins) rfl (by decide)⟩
  | case5 fuel c rest begins ih =>
    have moved := (Onward.front [.char '-', .char '-', .char '>'] begins c.line).trans
      (afterLine_onward rest (c.index + 3) c.line c.line)
    have on := (ih read (moved.place place)).1
    exact ⟨moved.trans on, .other (place.symm.trans begins) rfl (by decide)⟩
  | case6 => cases read; exact ⟨.refl _, .self _ _⟩
  | case7 fuel _ c rest begins _ ih =>
    have moved := (Onward.front [.char '<', .char '!', .char '-', .char '-'] begins c.line).trans
      (afterLine_onward rest (c.index + 4) c.line c.line)
    have on := (ih read (moved.place place)).1
    exact ⟨moved.trans on, .other (place.symm.trans begins) rfl (by decide)⟩
  | case8 => cases read; exact ⟨.refl _, .self _ _⟩
  | case9 fuel _ c rest begins ih =>
    have moved := Onward.front [.char '\r', .char '\n'] begins (c.line + 1)
    obtain ⟨on, clear⟩ := ih read (moved.place place)
    have here : source.drop c.index = .char '\r' :: .char '\n' :: rest := place.symm.trans begins
    have second : source.drop (c.index + 1) = .char '\n' :: rest := by rw [← List.drop_drop, here]; rfl
    exact ⟨moved.trans on, .blank here rfl (.blank second rfl clear)⟩
  | case10 fuel _ c char rest _ _ _ _ _ begins space ih =>
    have moved := Onward.front [char] begins c.line
    obtain ⟨on, clear⟩ := ih read (moved.place place)
    refine ⟨moved.trans on, ?_⟩
    by_cases blank : isBlank char
    · exact .blank (place.symm.trans begins) blank clear
    · refine .other (place.symm.trans begins) (by simpa using blank) ?_
      rintro rfl
      exact absurd space (by decide)
  | case11 fuel _ c char rest _ _ _ _ _ begins _ ends ih =>
    have moved := Onward.front [char] begins (c.line + 1)
    obtain ⟨on, clear⟩ := ih read (moved.place place)
    have blank : isBlank char := by
      simp only [endsLine, Bool.or_eq_true, beq_iff_eq] at ends
      rcases ends with ((rfl | rfl) | rfl) | rfl <;> rfl
    exact ⟨moved.trans on, .blank (place.symm.trans begins) blank clear⟩
  | case12 => cases read; exact ⟨.refl _, .self _ _⟩

end Cursor

end ClassMigration.Script
