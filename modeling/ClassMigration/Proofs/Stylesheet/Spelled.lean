import ClassMigration.Proofs.Stylesheet.PieceMentions

/-! How names are spelled. A character of a name takes one place, or more where it is escaped. A name that is
as long as its spelling has none that must be escaped; in particular it has no dot. -/
namespace ClassMigration.Stylesheet

open Piece (textOf)
open Value (mentionsOf)

/-- A spelling of the name can be that long: a character that may stand in names takes one place, and an
escape at least two. -/
inductive Spelling : Text → Nat → Prop
  | nil : Spelling [] 0
  | char {c : CodePoint} {name : Text} {length : Nat} (plain : Scanner.isNameChar c) (more : Spelling name length) :
      Spelling (c :: name) (length + 1)
  | escape {c : CodePoint} {name : Text} {length places : Nat} (long : 2 ≤ places)
      (more : Spelling name length) : Spelling (c :: name) (length + places)

namespace Spelling

variable {name : Text} {length : Nat}

theorem length_le (spelling : Spelling name length) : name.length ≤ length := by
  induction spelling with
  | nil => exact Nat.le_refl _
  | char _ _ ih => exact Nat.succ_le_succ ih
  | escape long _ ih =>
    rw [List.length_cons]
    omega

theorem isNameChar (spelling : Spelling name length) (short : length ≤ name.length) :
    ∀ c ∈ name, Scanner.isNameChar c := by
  induction spelling with
  | nil => exact fun c mem => absurd mem List.not_mem_nil
  | char plain _ ih =>
    have rest := ih (Nat.le_of_succ_le_succ short)
    exact List.forall_mem_cons.mpr ⟨plain, rest⟩
  | escape long more _ =>
    have shorter := more.length_le
    rw [List.length_cons] at short
    omega

theorem no_dot (spelling : Spelling name length) (short : length ≤ name.length) : .char '.' ∉ name := by
  intro mem
  have char := spelling.isNameChar short '.' mem
  revert char
  decide

end Spelling

theorem Scanner.name_spelling (fuel : Nat) (t : Text) : Spelling (name fuel t).1 (name fuel t).2 := by
  fun_induction name fuel t with
  | case1 | case2 | case5 => exact .nil
  | case3 fuel c rest isChar more length read ih =>
    rw [read] at ih
    exact .char isChar ih
  | case4 fuel c rest _ _ char skipped escape more length read ih =>
    rw [read] at ih
    cases rest with
    | nil =>
      obtain ⟨rfl, rfl⟩ := Prod.mk.inj escape
      exact .char rfl ih
    | cons d rest =>
      have pos := escaped_pos d rest
      rw [escape] at pos
      rw [Nat.add_assoc]
      exact .escape (Nat.succ_le_succ pos) ih

namespace Serialize

theorem length_lineEscape? {c : CodePoint} {s : Text} (escape : lineEscape? c = some s) : s.length = 3 := by
  unfold lineEscape? at escape
  split at escape
  all_goals cases escape
  all_goals rfl

/-- An escape in place of a character, at the end of a line or anywhere else. -/
theorem two_le_escape {c : CodePoint} {other : Text} (long : 2 ≤ other.length) :
    2 ≤ ((lineEscape? c).getD other).length := by
  cases escape : lineEscape? c with
  | none => exact long
  | some s =>
    rw [Option.getD_some, length_lineEscape? escape]
    exact Nat.le_succ 2

theorem name_spelling (n : Text) : Spelling n (name n).length := by
  induction n with
  | nil => exact .nil
  | cons c n ih =>
    have whole : (name (c :: n)).length = (name n).length + (nameChar c).length := by
      rw [name, List.flatMap_cons, List.length_append, Nat.add_comm]
      rfl
    rw [whole, nameChar]
    split
    · rename_i plain
      exact .char plain ih
    · exact .escape (two_le_escape (Nat.le_refl 2)) ih

theorem firstChar_spelling (c : CodePoint) (n : Text) : Spelling (c :: n) (firstChar c ++ name n).length := by
  rw [List.length_append, Nat.add_comm, firstChar]
  split
  · rename_i letter
    exact .char (by simp [Scanner.isNameChar, letter]) (name_spelling n)
  · refine .escape (two_le_escape ?_) (name_spelling n)
    split
    · simp
    · exact Nat.le_refl 2

theorem ident_spelling (n : Text) : Spelling n (ident n).length := by
  fun_cases ident n with
  | case1 => exact .nil
  | case2 =>
    change Spelling [.char '-'] (0 + 2)
    exact .escape (Nat.le_refl 2) .nil
  | case3 rest => exact .char rfl (.char rfl (name_spelling rest))
  | case4 c rest => exact .char rfl (firstChar_spelling c rest)
  | case5 c rest => exact firstChar_spelling c rest

end Serialize

namespace Mention

/-- The dot of the mention stands in `text`, which `b` comes before, and what is read behind it as a name is
the name of the mention. -/
def Spelled (b text : Text) (m : Mention) : Prop :=
  ∃ x y, text = x ++ .char '.' :: y ∧ m.dot = Position.first.after (b ++ x) ∧
    (Scanner.name y.length y).1 = m.name

theorem Spelled.behind {b s t : Text} {m : Mention} (spelled : Spelled (b ++ s) t m) :
    Spelled b (s ++ t) m := by
  obtain ⟨x, y, rfl, dot, name⟩ := spelled
  exact ⟨s ++ x, y, by simp, by rw [dot, List.append_assoc], name⟩

end Mention

open Mention (Spelled)

/-- The mentions in the pieces are spelled in the text of the pieces and what comes after. -/
def Piece.AllSpelled (pieces : List Piece) (after : Text) : Prop := ∀ (b : Text) (dotted : Bool),
  ∀ m ∈ mentionsOf (pendingAt dotted b) (Piece.valuesOf (Position.first.after (b ++ pending dotted)) pieces),
    Spelled b (pending dotted ++ (textOf pieces ++ after)) m

theorem Piece.AllSpelled.plain {pieces : List Piece} {after : Text} (all : AllSpelled pieces after)
    (b s w : Text) : ∀ m ∈ mentionsOf none (Piece.valuesOf ((Position.first.after (b ++ s)).after w) pieces),
      Spelled b (s ++ (w ++ (textOf pieces ++ after))) m := by
  intro m mem
  have place : (Position.first.after (b ++ s)).after w =
      Position.first.after (b ++ (s ++ w) ++ pending false) := by
    rw [← Position.after_append, List.append_assoc, pending, if_neg Bool.false_ne_true, List.append_nil]
  rw [place] at mem
  have spelled := all (b ++ (s ++ w)) false m mem
  rw [← List.append_assoc s]
  exact spelled.behind

theorem Scans.allSpelled {closing : Option CodePoint} {pieces : List Piece} {after : Text}
    (scans : Scans closing pieces after) : Piece.AllSpelled pieces after := by
  induction scans with
  | stop => exact fun b dotted m mem => absurd mem List.not_mem_nil
  | @leaf closing c w kind more after head reading fits rest ih =>
    intro b dotted m mem
    have next := ih.plain b (pending dotted) (c :: w)
    rw [Piece.textOf_leaf]
    cases kind with
    | dot =>
      obtain ⟨rfl, rfl⟩ := Leaf.eq_dot_of_fits fits
      have behind := ih (b ++ pending dotted) true
      rw [Position.after_append _ (b ++ pending dotted)] at behind
      exact (behind m mem).behind
    | ident name =>
      rcases List.mem_append.mp mem with own | later
      · cases dotted with
        | false => cases own
        | true =>
          obtain rfl := List.mem_singleton.mp own
          refine ⟨[], (c :: w) ++ (textOf more ++ after), rfl, by simp, ?_⟩
          have read := reading _ (Nat.le_refl _)
          rcases Scanner.read_cases read with ⟨dot, -⟩ | ⟨n, same, named⟩ | other
          · cases dot
          · obtain rfl : name = n := by simpa [Leaf.lexemes] using same
            rw [← List.cons_append] at named
            rw [named]
          · exact absurd rfl ((other.none _ List.mem_cons_self).2 name)
      · exact next m later
    | other lexemes =>
      rw [Piece.valuesOf, Piece.values, Leaf.lexemes, Value.mentionsOf_other fits] at mem
      exact next m mem
  | @nest closing c w opening inner more last after head reading fits closed inside rest ihInside ih =>
    intro b dotted m mem
    have within := ihInside.plain b (pending dotted) (c :: w)
    have behind := ih.plain b (pending dotted) ((c :: w) ++ textOf inner ++ last)
    have behindText : ((c :: w) ++ textOf inner ++ last) ++ (textOf more ++ after) =
        (c :: w) ++ (textOf inner ++ (last ++ (textOf more ++ after))) := by simp
    rw [behindText] at behind
    rw [Piece.textOf_nest]
    have both : m ∈ mentionsOf none (Piece.valuesOf
          ((Position.first.after (b ++ pending dotted)).after (c :: w)) inner) ∨
        m ∈ mentionsOf none (Piece.valuesOf ((Position.first.after (b ++ pending dotted)).after
          ((c :: w) ++ textOf inner ++ last)) more) := by
      cases opening <;> exact List.mem_append.mp mem
    rcases both with own | later
    · exact within m own
    · exact behind m later

end ClassMigration.Stylesheet
