import ClassMigration.Proofs.Stylesheet.Respelling
import ClassMigration.Proofs.Stylesheet.Similar

/-! The values of a text and of the text with classes spelled anew are similar. -/
namespace ClassMigration.Stylesheet

open Piece (textOf)

/-- A class stays where it is not replaced, and the texts behind its dot are alike; the names that come in
are replacements. -/
def respect (swap : Swap) (whole whole' : Text) : Respect where
  kept dot place name := swap place.1 name = none ∧ ∃ a a' t t', Alike t t' ∧
    whole = a ++ .char '.' :: t ∧ whole' = a' ++ .char '.' :: t' ∧
    dot = (Position.first.after a, Position.first.after a') ∧
    place = (Position.first.after (a ++ [.char '.']), Position.first.after (a' ++ [.char '.']))
  fresh new := ∃ p name news, swap p name = some news ∧ new ∈ news

/-- A dot that ends both texts so far, if there is one. -/
inductive AfterDot : Option (Position × Position) → Bool → Text → Text → Prop
  | no (a a' : Text) : AfterDot none false a a'
  | yes (b b' : Text) :
    AfterDot (some (Position.first.after b, Position.first.after b')) true (b ++ [.char '.']) (b' ++ [.char '.'])

namespace Scans

variable {closing : Option CodePoint} {swap : Swap} {whole whole' : Text}

theorem similar_chain {news : List Text} (nonempty : news ≠ []) {r : Respect}
    (fresh : ∀ n ∈ news, r.fresh n) {d d' p p' : Position} {name : Text} {more more' : List Value}
    (rest : Similar r none more more') :
    Similar r (some (d, d')) (.token p (.ident name) :: more)
      (Piece.valuesOf p' (Piece.chain news) ++ more') := by
  induction news generalizing d' p' with
  | nil => exact absurd rfl nonempty
  | cons n others ih =>
    cases others with
    | nil => exact .other (fresh n List.mem_cons_self) rest
    | cons m others =>
      have tail := @ih (by simp) (fun k mem => fresh k (List.mem_cons_of_mem n mem))
        (p'.after n) ((p'.after n).after [.char '.'])
      exact .before (fresh n List.mem_cons_self) tail

theorem similar_other {r : Respect} {lexemes : List Lexeme} (other : Scanner.Other lexemes)
    (p p' : Position) {dot : Option (Position × Position)} {more more' : List Value}
    (rest : Similar r none more more') :
    Similar r dot (lexemes.map (.token p) ++ more) (lexemes.map (.token p') ++ more') := by
  obtain ⟨nonempty, none⟩ := other
  obtain ⟨l, others, rfl⟩ := List.exists_cons_of_ne_nil nonempty
  have tokens : ∀ ls : List Lexeme, (∀ k ∈ ls, k ∈ l :: others) →
      Similar r Option.none (ls.map (.token p) ++ more) (ls.map (.token p') ++ more') := by
    intro ls inside
    induction ls with
    | nil => exact rest
    | cons k ls ih =>
      have tail := ih fun j mem => inside j (List.mem_cons_of_mem k mem)
      refine .token (.inl rfl) ?_
      rw [dotAt_of_ne (none k (inside k List.mem_cons_self)).1]
      exact tail
  refine .token (.inr (none l List.mem_cons_self).2) ?_
  rw [dotAt_of_ne (none l List.mem_cons_self).1]
  exact tokens others fun k mem => List.mem_cons_of_mem l mem

/-- A name is similar to what it becomes: it stays, or it becomes names with dots between them. -/
theorem similar_name (sound : swap.Sound whole) {dot : Option (Position × Position)} {dotted : Bool}
    {a a' raw name rest after' : Text} (afterDot : AfterDot dot dotted a a') {more : List Value}
    {more' : List Piece} (place : whole = a ++ (raw ++ rest))
    (place' : whole' = a' ++ (textOf (Piece.respelledName swap dotted (Position.first.after a) raw name ++
      more') ++ after'))
    (h : Alike rest (textOf more' ++ after'))
    (next : ∀ b, whole' = b ++ (textOf more' ++ after') →
      Similar (respect swap whole whole') none more (Piece.valuesOf (Position.first.after b) more')) :
    Similar (respect swap whole whole') dot (.token (Position.first.after a) (.ident name) :: more)
      (Piece.valuesOf (Position.first.after a')
        (Piece.respelledName swap dotted (Position.first.after a) raw name ++ more')) := by
  cases afterDot with
  | no =>
    have stays : Piece.respelledName swap false (Position.first.after a) raw name =
        [.leaf raw (.ident name)] := rfl
    rw [stays, List.singleton_append, Piece.textOf_leaf] at place'
    rw [stays, List.singleton_append, Piece.valuesOf_leaf]
    exact .token (.inl rfl) (next (a' ++ raw) (by rw [place', List.append_assoc]))
  | yes b b' =>
    cases news : swap (Position.first.after (b ++ [.char '.'])) name with
    | none =>
      rw [Piece.respelledName_none news, List.singleton_append, Piece.textOf_leaf] at place'
      rw [Piece.respelledName_none news, List.singleton_append, Piece.valuesOf_leaf]
      have tail := next (b' ++ [.char '.'] ++ raw) (by rw [place', List.append_assoc _ raw])
      refine .kept ⟨news, b, b', _, _, h.append raw, ?_, ?_, rfl, rfl⟩ tail
      · simpa using place
      · simpa using place'
    | some names =>
      rw [Piece.respelledName_some news, Piece.textOf_append, List.append_assoc (textOf _)] at place'
      rw [Piece.respelledName_some news, Piece.valuesOf_append, ← Position.after_append]
      have fresh : ∀ n ∈ names, (respect swap whole whole').fresh n :=
        fun n mem => ⟨_, _, names, news, mem⟩
      have tail := next (b' ++ [.char '.'] ++ textOf (Piece.chain names))
        (by rw [place', List.append_assoc _ (textOf _)])
      exact similar_chain (sound.nonempty news) fresh tail

theorem similar {pieces : List Piece} {after : Text} (scans : Scans closing pieces after)
    (sound : swap.Sound whole) (free : some (.char '.') ≠ closing) {dot : Option (Position × Position)}
    {dotted : Bool} {a a' after' : Text} (afterDot : AfterDot dot dotted a a')
    (place : whole = a ++ (textOf pieces ++ after))
    (place' : whole' = a' ++
      (textOf (Piece.respelledAll swap dotted (Position.first.after a) pieces) ++ after'))
    (h : Alike after after') :
    Similar (respect swap whole whole') dot (Piece.valuesOf (Position.first.after a) pieces)
      (Piece.valuesOf (Position.first.after a')
        (Piece.respelledAll swap dotted (Position.first.after a) pieces)) := by
  induction scans generalizing dot dotted a a' after' with
  | stop => exact .nil
  | @leaf closing c w kind more after head reading fits rest ih =>
    rw [Piece.textOf_leaf] at place
    rw [Piece.valuesOf_leaf]
    have place₂ : whole = (a ++ (c :: w)) ++ (textOf more ++ after) := by rw [place, List.append_assoc]
    cases kind with
    | dot =>
      obtain ⟨rfl, rfl⟩ := Leaf.eq_dot_of_fits fits
      rw [Piece.respelledAll_dot, Piece.textOf_leaf] at place'
      rw [Piece.respelledAll_dot, Piece.valuesOf_leaf]
      have tail := ih free (.yes a a') place₂ (by rw [place', List.append_assoc]) h
      exact .token (.inr (by simp)) tail
    | ident name =>
      rw [Piece.respelledAll_ident] at place' ⊢
      have beyond := (rest.respelledAll sound free false (a ++ (c :: w)) after' place₂ h).2
      exact similar_name sound afterDot place place' beyond fun b place₃ =>
        ih free (.no (a ++ (c :: w)) b) place₂ place₃ h
    | other lexemes =>
      rw [Piece.respelledAll_other, Piece.textOf_leaf] at place'
      rw [Piece.respelledAll_other, Piece.valuesOf_leaf]
      have tail := ih free (.no (a ++ (c :: w)) (a' ++ (c :: w))) place₂
        (by rw [place', List.append_assoc]) h
      exact similar_other fits _ _ tail
  | @nest closing c w opening inner more last after head reading fits closed inside rest ihInside ih =>
    rw [Piece.textOf_nest] at place
    rw [Piece.respelledAll_nest, Piece.textOf_nest] at place'
    rw [Piece.respelledAll_nest, Piece.valuesOf_nest, Piece.valuesOf_nest]
    have due : some (.char '.') ≠ some opening.due := opening.due_ne_dot
    have place₂ : whole = (a ++ (c :: w)) ++ (textOf inner ++ (last ++ (textOf more ++ after))) := by
      rw [place, List.append_assoc]
    have place₃ : whole = (a ++ ((c :: w) ++ textOf inner ++ last)) ++ (textOf more ++ after) := by
      rw [place]
      simp
    have beyond := (rest.respelledAll sound free false _ after' place₃ h).2
    have within := ihInside due (.no _ (a' ++ (c :: w))) place₂ (by rw [place', List.append_assoc a'])
      (Alike.append last beyond)
    have tail := fun b place₄ => ih free (.no _ b) place₃ place₄ h
    cases opening with
    | function => exact .function within (tail _ (by rw [place']; simp))
    | block => exact .block within (tail _ (by rw [place']; simp))

end Scans

end ClassMigration.Stylesheet
