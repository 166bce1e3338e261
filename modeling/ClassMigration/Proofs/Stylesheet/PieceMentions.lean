import ClassMigration.Proofs.Stylesheet.Piece
import ClassMigration.Proofs.Stylesheet.Mentions

/-! Where the names after dots stand in a text that is cut into pieces. Each begins right after its dot, and
no two of them have the same dot. -/
namespace ClassMigration.Stylesheet

open Piece (textOf)
open Value (mentionsOf)

/-- A dot that was passed and that a name may follow. -/
def pending (dotted : Bool) : Text := if dotted then [.char '.'] else []

def pendingAt (dotted : Bool) (b : Text) : Option Position :=
  if dotted then some (Position.first.after b) else none

namespace Mention

/-- The dot of the mention stands in `text`, which `b` comes before, and the name begins behind it. -/
def Inside (b text : Text) (m : Mention) : Prop :=
  ∃ x y, text = x ++ .char '.' :: y ∧ m.dot = Position.first.after (b ++ x) ∧
    m.place = Position.first.after (b ++ x ++ [.char '.'])

def Later (m n : Mention) : Prop := ∃ x ≠ [], n.dot = m.dot.after x

variable {b s t : Text} {m n : Mention}

theorem Inside.front (inside : Inside b s m) (t : Text) : Inside b (s ++ t) m := by
  obtain ⟨x, y, rfl, dot, place⟩ := inside
  exact ⟨x, y ++ t, by simp, dot, place⟩

theorem Inside.behind (inside : Inside (b ++ s) t m) : Inside b (s ++ t) m := by
  obtain ⟨x, y, rfl, dot, place⟩ := inside
  exact ⟨s ++ x, y, by simp, by rw [dot, List.append_assoc], by rw [place, List.append_assoc b]⟩

theorem Inside.later (inside : Inside b s m) (inside' : Inside (b ++ s) t n) : Later m n := by
  obtain ⟨x, y, rfl, dot, -⟩ := inside
  obtain ⟨x', y', -, dot', -⟩ := inside'
  refine ⟨.char '.' :: y ++ x', by simp, ?_⟩
  rw [dot, dot', ← Position.after_append]
  simp

theorem Later.ne (later : Later m n) : m.dot ≠ n.dot := by
  obtain ⟨x, some, same⟩ := later
  rw [same]
  exact fun back => m.dot.after_ne some back.symm

def Row (b text : Text) (ms : List Mention) : Prop := (∀ m ∈ ms, m.Inside b text) ∧ ms.Pairwise Later

namespace Row

variable {ms ns : List Mention}

theorem nil (b text : Text) : Row b text [] := ⟨by simp, .nil⟩

theorem append (row : Row b s ms) (row' : Row (b ++ s) t ns) : Row b (s ++ t) (ms ++ ns) := by
  refine ⟨?_, List.pairwise_append.mpr ⟨row.2, row'.2, fun m mem n mem' => ?_⟩⟩
  · intro m mem
    rcases List.mem_append.mp mem with here | later
    · exact (row.1 m here).front t
    · exact (row'.1 m later).behind
  · exact (row.1 m mem).later (row'.1 n mem')

theorem behind (row : Row (b ++ s) t ms) : Row b (s ++ t) ms := append (.nil b s) row

end Row

end Mention

open Mention (Row)

theorem Value.mentionsOf_other {lexemes : List Lexeme} (other : Scanner.Other lexemes)
    (dot : Option Position) (p : Position) (more : List Value) :
    mentionsOf dot (lexemes.map (.token p) ++ more) = mentionsOf none more := by
  obtain ⟨nonempty, plain⟩ := other
  have single : ∀ l ∈ lexemes, ∀ d, Value.mentions d (.token p l) = [] ∧ Value.dot? (.token p l) = none := by
    intro l mem d
    obtain ⟨notDot, notIdent⟩ := plain l mem
    cases l with
    | ident name => exact absurd rfl (notIdent name)
    | mark text =>
      refine ⟨rfl, ?_⟩
      unfold Value.dot?
      split
      · rename_i same
        cases same
        exact absurd rfl notDot
      · rfl
    | _ => exact ⟨rfl, rfl⟩
  obtain ⟨l, others, rfl⟩ := List.exists_cons_of_ne_nil nonempty
  have rest : ∀ ls : List Lexeme, (∀ k ∈ ls, k ∈ l :: others) →
      mentionsOf none (ls.map (.token p) ++ more) = mentionsOf none more := by
    intro ls inside
    induction ls with
    | nil => rfl
    | cons k ls ih =>
      obtain ⟨empty, undotted⟩ := single k (inside k List.mem_cons_self) none
      rw [List.map_cons, List.cons_append, mentionsOf, empty, undotted]
      exact ih fun j mem => inside j (List.mem_cons_of_mem k mem)
  obtain ⟨empty, undotted⟩ := single l List.mem_cons_self dot
  rw [List.map_cons, List.cons_append, mentionsOf, empty, undotted]
  exact rest others fun k mem => List.mem_cons_of_mem l mem

/-- The mentions in the pieces stand one after the other, wherever the pieces are. -/
def Piece.InRow (pieces : List Piece) : Prop := ∀ (b : Text) (dotted : Bool),
  Row b (pending dotted ++ textOf pieces) (mentionsOf (pendingAt dotted b)
    (Piece.valuesOf (Position.first.after (b ++ pending dotted)) pieces))

theorem Piece.InRow.plain {pieces : List Piece} (inRow : InRow pieces) (b s w : Text) :
    Row (b ++ (s ++ w)) (textOf pieces)
      (mentionsOf none (Piece.valuesOf ((Position.first.after (b ++ s)).after w) pieces)) := by
  have row := inRow (b ++ (s ++ w)) false
  change Row _ (textOf pieces) (mentionsOf none (Piece.valuesOf (Position.first.after (_ ++ [])) pieces))
    at row
  rw [List.append_nil] at row
  rw [← Position.after_append, List.append_assoc]
  exact row

theorem Scans.inRow {closing : Option CodePoint} {pieces : List Piece} {after : Text}
    (scans : Scans closing pieces after) : Piece.InRow pieces := by
  induction scans with
  | stop => exact fun b dotted => .nil _ _
  | @leaf closing c w kind more after head reading fits rest ih =>
    intro b dotted
    have next := ih.plain b (pending dotted) (c :: w)
    have text : pending dotted ++ textOf (.leaf (c :: w) kind :: more) =
        (pending dotted ++ (c :: w)) ++ textOf more := by simp [textOf, Piece.text]
    rw [text]
    cases kind with
    | dot =>
      obtain ⟨rfl, rfl⟩ := Leaf.eq_dot_of_fits fits
      have behind := ih (b ++ pending dotted) true
      rw [Position.after_append _ (b ++ pending dotted)] at behind
      rw [List.append_assoc]
      exact behind.behind
    | ident name =>
      have own : Row b (pending dotted ++ (c :: w)) (Value.mentions (pendingAt dotted b)
          (.token (Position.first.after (b ++ pending dotted)) (.ident name))) := by
        cases dotted with
        | false => exact .nil _ _
        | true =>
          refine ⟨fun m mem => ?_, List.pairwise_singleton _ _⟩
          obtain rfl := List.mem_singleton.mp mem
          exact ⟨[], c :: w, rfl, by simp, by simp [pending]⟩
      exact own.append next
    | other lexemes =>
      change Row b _ (mentionsOf _ (lexemes.map _ ++ _))
      rw [Value.mentionsOf_other fits]
      exact next.behind
  | @nest closing c w opening inner more last after head reading fits closed inside rest ihInside ih =>
    intro b dotted
    have within := ihInside.plain b (pending dotted) (c :: w)
    have behind := ih.plain b (pending dotted) ((c :: w) ++ textOf inner ++ last)
    have text : pending dotted ++ textOf (.nest (c :: w) opening inner last :: more) =
        (pending dotted ++ (c :: w)) ++ ((textOf inner ++ last) ++ textOf more) := by
      simp [textOf, Piece.text]
    have join : b ++ (pending dotted ++ ((c :: w) ++ textOf inner ++ last)) =
        b ++ (pending dotted ++ (c :: w)) ++ (textOf inner ++ last) := by simp
    rw [join] at behind
    rw [text]
    have whole := (within.append (.nil _ last)).append behind
    rw [List.append_nil] at whole
    cases opening with
    | function => exact whole.behind
    | block => exact whole.behind

end ClassMigration.Stylesheet
