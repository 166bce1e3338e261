import ClassMigration.Proofs.Stylesheet.Piece

/-! Classes of a text spelled anew. A name directly after a dot is replaced by one or more names with dots
between them; all other pieces stay, and the new text is cut into just these pieces. -/
namespace ClassMigration.Stylesheet

/-- Which names after a dot are replaced, by their places, and by what. -/
abbrev Swap := Position → Text → Option (List Text)

namespace Piece

def isDot : Piece → Bool
  | leaf _ .dot => true
  | _ => false

def chain : List Text → List Piece
  | [] => []
  | [name] => [leaf name (.ident name)]
  | name :: more => leaf name (.ident name) :: leaf [.char '.'] .dot :: chain more

/-- What a name becomes; `dotted` tells whether a dot stands before it. -/
def respelledName (swap : Swap) (dotted : Bool) (p : Position) (raw name : Text) : List Piece :=
  match dotted, swap p name with
  | true, some news => chain news
  | _, _ => [leaf raw (.ident name)]

theorem respelledName_none {swap : Swap} {p : Position} {name : Text} (stays : swap p name = none)
    (dotted : Bool) (raw : Text) : respelledName swap dotted p raw name = [leaf raw (.ident name)] := by
  unfold respelledName
  rw [stays]
  cases dotted <;> rfl

theorem respelledName_some {swap : Swap} {p : Position} {name : Text} {news : List Text}
    (becomes : swap p name = some news) (raw : Text) :
    respelledName swap true p raw name = chain news := by
  unfold respelledName
  rw [becomes]

mutual

def respelled (swap : Swap) (dotted : Bool) (p : Position) : Piece → List Piece
  | leaf raw (.ident name) => respelledName swap dotted p raw name
  | leaf raw .dot => [leaf raw .dot]
  | leaf raw (.other lexemes) => [leaf raw (.other lexemes)]
  | nest raw opening inner last =>
    [nest raw opening (respelledAll swap false (p.after raw) inner) last]

def respelledAll (swap : Swap) (dotted : Bool) (p : Position) : List Piece → List Piece
  | [] => []
  | piece :: more =>
    respelled swap dotted p piece ++ respelledAll swap (isDot piece) (p.after (text piece)) more

end

section

variable (swap : Swap) (dotted : Bool) (a raw : Text) (more : List Piece)

theorem respelledAll_dot : respelledAll swap dotted (Position.first.after a) (leaf raw .dot :: more) =
    leaf raw .dot :: respelledAll swap true (Position.first.after (a ++ raw)) more := by
  rw [Position.after_append]
  rfl

theorem respelledAll_ident (name : Text) :
    respelledAll swap dotted (Position.first.after a) (leaf raw (.ident name) :: more) =
      respelledName swap dotted (Position.first.after a) raw name ++
        respelledAll swap false (Position.first.after (a ++ raw)) more := by
  rw [Position.after_append]
  rfl

theorem respelledAll_other (lexemes : List Lexeme) :
    respelledAll swap dotted (Position.first.after a) (leaf raw (.other lexemes) :: more) =
      leaf raw (.other lexemes) :: respelledAll swap false (Position.first.after (a ++ raw)) more := by
  rw [Position.after_append]
  rfl

theorem respelledAll_nest (opening : Opening) (inner : List Piece) (last : Text) :
    respelledAll swap dotted (Position.first.after a) (nest raw opening inner last :: more) =
      nest raw opening (respelledAll swap false (Position.first.after (a ++ raw)) inner) last ::
        respelledAll swap false (Position.first.after (a ++ (raw ++ textOf inner ++ last))) more := by
  rw [Position.after_append, Position.after_append _ a]
  rfl

end

end Piece

open Piece (textOf)

/-- A swap replaces plain names where they stand in the text by plain names with the same first letter. -/
structure Swap.Sound (swap : Swap) (whole : Text) : Prop where
  plain {p name news} : swap p name = some news → Plain name
  nonempty {p name news} : swap p name = some news → news ≠ []
  news {p name news} : swap p name = some news → ∀ n ∈ news, Plain n ∧ n.head? = name.head?
  opens {a rest name news} : whole = a ++ rest → swap (Position.first.after a) name = some news →
    name <+: rest

/-- Texts that are alike, or alike with the dot before them. -/
def AlikeAfter (dotted : Bool) (t t' : Text) : Prop :=
  if dotted then Alike ('.' :: t) ('.' :: t') else Alike t t'

theorem AlikeAfter.of_alike {t t' : Text} (h : Alike t t') (dotted : Bool) :
    AlikeAfter dotted t t' := by
  cases dotted with
  | false => exact h
  | true => exact h.cons '.'

theorem Plain.head {n : Text} {c : CodePoint} (plain : Plain n) (head : n.head? = some c) :
    c.isAlpha ∧ ∃ w, n = c :: w := by
  obtain ⟨d, e, rest, rfl, letter⟩ := plain.begins
  obtain rfl : d = c := by simpa using head
  exact ⟨letter, _, rfl⟩

namespace Piece

variable {news : List Text} {c : CodePoint}

theorem chain_cons (n m : Text) (more : List Text) :
    chain (n :: m :: more) = leaf n (.ident n) :: leaf [.char '.'] .dot :: chain (m :: more) := rfl

theorem textOf_chain (nonempty : news ≠ []) (heads : ∀ n ∈ news, n.head? = some c) :
    ∃ t, textOf (chain news) = c :: t := by
  obtain ⟨n, more, rfl⟩ := List.exists_cons_of_ne_nil nonempty
  obtain ⟨w, rfl⟩ : ∃ w, n = c :: w := List.head?_eq_some_iff.mp (heads n List.mem_cons_self)
  cases more with
  | nil => exact ⟨w, by simp [chain, textOf, text]⟩
  | cons m more => exact ⟨w ++ .char '.' :: textOf (chain (m :: more)), by simp [chain, textOf, text]⟩

end Piece

namespace Scans

variable {closing : Option CodePoint}

theorem dot {more : List Piece} {after : Text} (head : some (.char '.') ≠ closing)
    (letter : ∃ c t, textOf more ++ after = c :: t ∧ c.isAlpha) (rest : Scans closing more after) :
    Scans closing (.leaf [.char '.'] .dot :: more) after := by
  refine .leaf head ?_ rfl rest
  intro fuel _
  obtain ⟨c, t, same, letter⟩ := letter
  rw [List.nil_append, same, Scanner.read_dot letter]
  rfl

theorem ident {n : Text} {c : CodePoint} (plain : Plain n) (first : n.head? = some c)
    (head : some c ≠ closing) {more : List Piece} {after : Text} (rest : Scans closing more after)
    (bounds : Bounds (textOf more ++ after)) :
    Scans closing (.leaf n (.ident n) :: more) after := by
  obtain ⟨letter, w, rfl⟩ := plain.head first
  refine .leaf head ?_ trivial rest
  intro fuel enough
  exact Scanner.read_plain plain bounds enough

theorem chain {news : List Text} {c : CodePoint} (nonempty : news ≠ [])
    (plain : ∀ n ∈ news, Plain n ∧ n.head? = some c) (head : some c ≠ closing)
    (free : some (.char '.') ≠ closing) {more : List Piece} {after : Text} (rest : Scans closing more after)
    (bounds : Bounds (textOf more ++ after)) : Scans closing (Piece.chain news ++ more) after := by
  induction news with
  | nil => exact absurd rfl nonempty
  | cons n others ih =>
    obtain ⟨isPlain, first⟩ := plain n List.mem_cons_self
    cases others with
    | nil => exact ident isPlain first head rest bounds
    | cons m others =>
      have plainOthers : ∀ k ∈ m :: others, Plain k ∧ k.head? = some c :=
        fun k mem => plain k (List.mem_cons_of_mem n mem)
      have tail := ih (by simp) plainOthers
      obtain ⟨t, text⟩ := @Piece.textOf_chain (m :: others) _ (by simp)
        fun k mem => (plainOthers k mem).2
      have letter := (isPlain.head first).1
      rw [Piece.chain_cons, List.cons_append, List.cons_append]
      refine ident isPlain first head (dot free ⟨c, t ++ (textOf more ++ after), ?_, letter⟩ tail) ?_
      · simp [text]
      · exact Bounds.dot _

theorem leaf_alike {c : CodePoint} {w : Text} {kind : Leaf} {more more' : List Piece} {after after' : Text}
    (head : some c ≠ closing)
    (reading : ∀ fuel, (c :: (w ++ (textOf more ++ after))).length ≤ fuel →
      Scanner.read fuel (c :: (w ++ (textOf more ++ after))) = .tokens kind.lexemes (c :: w).length)
    (fits : kind.Fits (c :: w)) (rest : Scans closing more' after')
    (h : Alike (textOf more ++ after) (textOf more' ++ after')) :
    Scans closing (.leaf (c :: w) kind :: more') after' := by
  refine .leaf head ?_ fits rest
  intro fuel enough
  have before := reading _ (Nat.le_refl _)
  rw [← before]
  exact Scanner.read_alike h c w _ fuel (Nat.le_refl _) enough (by rw [before]; exact Nat.le_refl _)

/-- A leaf that stays is alike with what follows it, and the scan goes on behind it. -/
theorem leaf_stays {c : CodePoint} {w : Text} {kind : Leaf} {more more' : List Piece} {after after' : Text}
    (head : some c ≠ closing)
    (reading : ∀ fuel, (c :: (w ++ (textOf more ++ after))).length ≤ fuel →
      Scanner.read fuel (c :: (w ++ (textOf more ++ after))) = .tokens kind.lexemes (c :: w).length)
    (fits : kind.Fits (c :: w)) (rest : Scans closing more' after')
    (h : Alike (textOf more ++ after) (textOf more' ++ after')) (dotted : Bool) :
    Scans closing (.leaf (c :: w) kind :: more') after' ∧ AlikeAfter dotted
      ((c :: w) ++ (textOf more ++ after)) (textOf (.leaf (c :: w) kind :: more') ++ after') := by
  refine ⟨leaf_alike head reading fits rest h, .of_alike ?_ dotted⟩
  rw [Piece.textOf_leaf]
  exact h.append (c :: w)

variable {swap : Swap} {whole : Text}

/-- A name stays, or the names that it becomes are cut again; what comes in begins with the same letter. -/
theorem respelledName (sound : swap.Sound whole) (free : some (.char '.') ≠ closing) {c : CodePoint} {a w name : Text}
    {more more' : List Piece} {after after' : Text} (head : some c ≠ closing)
    (reading : ∀ fuel, (c :: (w ++ (textOf more ++ after))).length ≤ fuel →
      Scanner.read fuel (c :: (w ++ (textOf more ++ after))) = .tokens [.ident name] (c :: w).length)
    (place : whole = a ++ ((c :: w) ++ (textOf more ++ after))) (rest : Scans closing more' after')
    (h : Alike (textOf more ++ after) (textOf more' ++ after')) (dotted : Bool) :
    Scans closing (Piece.respelledName swap dotted (Position.first.after a) (c :: w) name ++ more') after' ∧
      AlikeAfter dotted ((c :: w) ++ (textOf more ++ after))
        (textOf (Piece.respelledName swap dotted (Position.first.after a) (c :: w) name ++ more') ++ after') := by
  have stays := @leaf_stays _ c w (.ident name) _ _ _ _ head reading trivial rest h dotted
  cases news : swap (Position.first.after a) name with
  | none =>
    rw [Piece.respelledName_none news]
    exact stays
  | some news =>
    cases dotted with
    | false => exact stays
    | true =>
      have opens := sound.opens place news
      obtain ⟨rfl, bounds⟩ := Scanner.read_ident_plain (Nat.le_refl _) (reading _ (Nat.le_refl _))
        (sound.plain news) opens
      have plain : ∀ n ∈ _, Plain n ∧ n.head? = some c := sound.news news
      rw [Piece.respelledName_some news]
      refine ⟨chain (sound.nonempty news) plain head free rest (bounds.alike h), ?_⟩
      obtain ⟨t, text⟩ := Piece.textOf_chain (sound.nonempty news) fun n mem => (plain n mem).2
      have letter := ((sound.plain news).head rfl).1
      simpa [AlikeAfter, text] using
        Alike.dot letter (w ++ (textOf more ++ after)) (t ++ (textOf more' ++ after'))

/-- Spelling classes anew leaves every other piece as it was. -/
theorem respelledAll {pieces : List Piece} {after : Text} (scans : Scans closing pieces after)
    (sound : swap.Sound whole) (free : some (.char '.') ≠ closing) (dotted : Bool) (a after' : Text)
    (place : whole = a ++ (textOf pieces ++ after)) (h : Alike after after') :
    Scans closing (Piece.respelledAll swap dotted (Position.first.after a) pieces) after' ∧
      AlikeAfter dotted (textOf pieces ++ after)
        (textOf (Piece.respelledAll swap dotted (Position.first.after a) pieces) ++ after') := by
  induction scans generalizing dotted a after' with
  | @stop closing after stops =>
    refine ⟨.stop ?_, .of_alike h dotted⟩
    intro c rest same
    obtain ⟨t, rfl⟩ := List.head?_eq_some_iff.mp (h.head_eq.trans (by rw [same]; rfl))
    exact stops c t rfl
  | @leaf closing c w kind more after head reading fits rest ih =>
    rw [Piece.textOf_leaf] at place ⊢
    have next := fun dotted =>
      ih free dotted (a ++ (c :: w)) after' (by rw [place, List.append_assoc]) h
    cases kind with
    | dot =>
      obtain ⟨rfl, rfl⟩ := Leaf.eq_dot_of_fits fits
      obtain ⟨tail, alike⟩ := next true
      rw [Piece.respelledAll_dot]
      -- What follows the dot is alike, or it is a letter in both texts.
      obtain ⟨t, split, tails | ⟨-, d, letter, -, right⟩⟩ := Alike.cons_cases alike
      · rw [← (List.cons.inj split).2] at tails
        exact leaf_stays head reading fits tail tails dotted
      · rw [← (List.cons.inj split).2] at right
        obtain ⟨t, follows⟩ := List.head?_eq_some_iff.mp right
        refine ⟨dot free ⟨d, t, follows, letter⟩ tail, .of_alike ?_ dotted⟩
        rw [Piece.textOf_leaf]
        exact alike
    | ident name =>
      obtain ⟨tail, alike⟩ := next false
      rw [Piece.respelledAll_ident]
      exact respelledName sound free head reading place tail alike dotted
    | other lexemes =>
      obtain ⟨tail, alike⟩ := next false
      rw [Piece.respelledAll_other]
      exact leaf_stays head reading fits tail alike dotted
  | @nest closing c w opening inner more last after head reading fits closed inside rest ihInside ih =>
    rw [Piece.textOf_nest] at place ⊢
    obtain ⟨tail, alike⟩ := ih free false (a ++ ((c :: w) ++ textOf inner ++ last)) after'
      (by rw [place]; simp) h
    have beyond := Alike.append last alike
    obtain ⟨scans, inAlike⟩ := ihInside opening.due_ne_dot false (a ++ (c :: w)) _
      (by rw [place, List.append_assoc]) beyond
    rw [Piece.respelledAll_nest]
    refine ⟨.nest head ?_ fits ?_ scans tail, .of_alike ?_ dotted⟩
    · intro fuel enough
      have before := reading _ (Nat.le_refl _)
      rw [← before]
      refine Scanner.read_alike inAlike c w _ fuel (Nat.le_refl _) enough ?_
      rw [before]
      cases opening with
      | function => exact Nat.le_refl _
      | block => exact Nat.le_of_eq fits.symm
    · rcases closed with rfl | ⟨rfl, rfl, rfl⟩
      · exact .inl rfl
      · exact .inr ⟨rfl, rfl, h.eq_nil⟩
    · rw [Piece.textOf_nest]
      exact Alike.append (c :: w) inAlike

end Scans

end ClassMigration.Stylesheet
