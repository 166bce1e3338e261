import ClassMigration.Proofs.Stylesheet.Names

/-! A text cut into pieces without loss: each leaf keeps the characters that its tokens were read from, and
each nest those that open and close it. Every text is cut in this way, and its values are the values of
the pieces. -/
namespace ClassMigration.Stylesheet

/-- What a leaf was read as. Dots and names are told apart from all other tokens. -/
inductive Leaf where
  | dot
  | ident (name : Text)
  | other (lexemes : List Lexeme)

namespace Leaf

def lexemes : Leaf → List Lexeme
  | dot => [.mark [.char '.']]
  | ident name => [.ident name]
  | other lexemes => lexemes

/-- The leaf can stand for the characters. -/
def Fits : Leaf → Text → Prop
  | dot, raw => raw = [.char '.']
  | ident _, _ => True
  | other lexemes, _ => Scanner.Other lexemes

theorem eq_dot_of_fits {c : CodePoint} {w : Text} (fits : Leaf.dot.Fits (c :: w)) : c = '.' ∧ w = [] :=
  List.cons.inj fits

end Leaf

inductive Opening where
  | function (name : Text)
  | block (bracket : Bracket)

namespace Opening

def due : Opening → CodePoint
  | function _ => ')'
  | block bracket => bracket.closing

theorem due_ne_dot (opening : Opening) : some (.char '.') ≠ some opening.due := by
  cases opening with
  | function => simp [due]
  | block bracket => cases bracket <;> simp [due, Bracket.closing]

def value (place : Position) (content : List Value) : Opening → Value
  | function name => .function place name content
  | block bracket => .block place bracket content

def reading (length : Nat) : Opening → Scanner.Reading
  | function name => .function name length
  | block bracket => .block bracket

/-- The opening can stand for the characters. -/
def Fits : Opening → Text → Prop
  | function _, _ => True
  | block _, raw => raw.length = 1

end Opening

inductive Piece where
  | leaf (raw : Text) (kind : Leaf)
  /-- A function or block; `last` is its closing character, or nothing at the end of the text. -/
  | nest (raw : Text) (opening : Opening) (inner : List Piece) (last : Text)

namespace Piece

mutual

def text : Piece → Text
  | leaf raw _ => raw
  | nest raw _ inner last => raw ++ textOf inner ++ last

def textOf : List Piece → Text
  | [] => []
  | piece :: more => text piece ++ textOf more

end

mutual

def values (p : Position) : Piece → List Value
  | leaf _ kind => kind.lexemes.map (.token p)
  | nest raw opening inner _ => [opening.value p (valuesOf (p.after raw) inner)]

def valuesOf (p : Position) : List Piece → List Value
  | [] => []
  | piece :: more => values p piece ++ valuesOf (p.after (text piece)) more

end

@[simp] theorem textOf_append (s t : List Piece) : textOf (s ++ t) = textOf s ++ textOf t := by
  induction s with
  | nil => rfl
  | cons piece s ih => simp [textOf, ih]

section

variable (raw : Text) (more : List Piece) (after : Text)

theorem textOf_leaf (kind : Leaf) :
    textOf (leaf raw kind :: more) ++ after = raw ++ (textOf more ++ after) := by
  simp [textOf, text]

theorem textOf_nest (opening : Opening) (inner : List Piece) (last : Text) :
    textOf (nest raw opening inner last :: more) ++ after =
      raw ++ (textOf inner ++ (last ++ (textOf more ++ after))) := by
  simp [textOf, text]

end

theorem valuesOf_append (p : Position) (s t : List Piece) :
    valuesOf p (s ++ t) = valuesOf p s ++ valuesOf (p.after (textOf s)) t := by
  induction s generalizing p with
  | nil => rfl
  | cons piece s ih => simp [valuesOf, textOf, ih, Position.after_append]

section

variable (a raw : Text) (more : List Piece)

theorem valuesOf_leaf (kind : Leaf) : valuesOf (Position.first.after a) (leaf raw kind :: more) =
    kind.lexemes.map (.token (Position.first.after a)) ++ valuesOf (Position.first.after (a ++ raw)) more := by
  rw [Position.after_append]
  rfl

theorem valuesOf_nest (opening : Opening) (inner : List Piece) (last : Text) :
    valuesOf (Position.first.after a) (nest raw opening inner last :: more) =
      opening.value (Position.first.after a) (valuesOf (Position.first.after (a ++ raw)) inner) ::
        valuesOf (Position.first.after (a ++ (raw ++ textOf inner ++ last))) more := by
  rw [Position.after_append, Position.after_append _ a]
  rfl

end

end Piece

open Piece (textOf)

/-- The text of the pieces before `after` is cut into them, and the scan for `closing` stops there. -/
inductive Scans : Option CodePoint → List Piece → Text → Prop
  | stop {closing : Option CodePoint} {after : Text}
      (stops : ∀ c rest, after = c :: rest → closing = some c) : Scans closing [] after
  | leaf {closing : Option CodePoint} {c : CodePoint} {w : Text} {kind : Leaf} {more : List Piece} {after : Text}
      (head : some c ≠ closing)
      (reading : ∀ fuel, (c :: (w ++ (textOf more ++ after))).length ≤ fuel →
        Scanner.read fuel (c :: (w ++ (textOf more ++ after))) = .tokens kind.lexemes (c :: w).length)
      (fits : kind.Fits (c :: w)) (rest : Scans closing more after) :
      Scans closing (.leaf (c :: w) kind :: more) after
  | nest {closing : Option CodePoint} {c : CodePoint} {w : Text} {opening : Opening} {inner more : List Piece}
      {last after : Text} (head : some c ≠ closing)
      (reading : ∀ fuel, (c :: (w ++ (textOf inner ++ (last ++ (textOf more ++ after))))).length ≤ fuel →
        Scanner.read fuel (c :: (w ++ (textOf inner ++ (last ++ (textOf more ++ after))))) =
          opening.reading (c :: w).length)
      (fits : opening.Fits (c :: w))
      (closed : last = [opening.due] ∨ (last = [] ∧ more = [] ∧ after = []))
      (inside : Scans (some opening.due) inner (last ++ (textOf more ++ after)))
      (rest : Scans closing more after) :
      Scans closing (.nest (c :: w) opening inner last :: more) after

namespace Scanner

/-- The bound on the steps of a reading does not matter. -/
theorem read_fuel {c : CodePoint} {rest : Text} {fuel fuel' : Nat} (enough : (c :: rest).length ≤ fuel)
    (enough' : (c :: rest).length ≤ fuel') : read fuel' (c :: rest) = read fuel (c :: rest) := by
  have within := (read_length enough).2
  have same := read_alike (.same []) c rest fuel fuel' (by simpa using enough)
    (by simpa using enough') (by simpa using within)
  simpa using same

/-- A reading takes the first character and some that follow. -/
theorem exists_taken (c : CodePoint) (rest : Text) : ∃ w t, rest = w ++ t ∧
    (read (c :: rest).length (c :: rest)).length = (c :: w).length := by
  obtain ⟨pos, room⟩ := @read_length _ c rest (Nat.le_refl _)
  obtain ⟨k, same⟩ := Nat.exists_eq_add_of_lt pos
  refine ⟨rest.take k, rest.drop k, (List.take_append_drop k rest).symm, ?_⟩
  simp only [List.length_cons, List.length_take] at *
  omega

theorem exists_leaf {fuel : Nat} {c : CodePoint} {w t : Text} {lexemes : List Lexeme}
    (reading : read fuel (c :: (w ++ t)) = .tokens lexemes (c :: w).length) :
    ∃ kind : Leaf, kind.lexemes = lexemes ∧ kind.Fits (c :: w) := by
  rcases read_cases reading with ⟨rfl, rfl, one⟩ | ⟨n, rfl, _⟩ | other
  · obtain rfl : w = [] := List.length_eq_zero_iff.mp (Nat.succ.inj one)
    exact ⟨.dot, rfl, rfl⟩
  · exact ⟨.ident n, rfl, trivial⟩
  · exact ⟨.other lexemes, rfl, other⟩

section

variable {closing : Option CodePoint} {c : CodePoint} {w t : Text} {fuel : Nat}

theorem values_tokens {lexemes : List Lexeme} (head : some c ≠ closing)
    (reading : read (fuel + 1) (c :: (w ++ t)) = .tokens lexemes (c :: w).length) (p : Position) :
    values (fuel + 1) closing p (c :: (w ++ t)) =
      (lexemes.map (.token p) ++ (values fuel closing (p.after (c :: w)) t).1,
        (values fuel closing (p.after (c :: w)) t).2) := by
  rw [values, if_neg (by simpa using head)]
  simp only [reading]
  simp

theorem values_nest {opening : Opening} (head : some c ≠ closing)
    (reading : read (fuel + 1) (c :: (w ++ t)) = opening.reading (c :: w).length)
    (fits : opening.Fits (c :: w)) {p q : Position} {inner : List Value} {rest : Text}
    (inside : values fuel (some opening.due) (p.after (c :: w)) t = (inner, q, rest)) :
    values (fuel + 1) closing p (c :: (w ++ t)) =
      (opening.value p inner :: (values fuel closing q rest).1, (values fuel closing q rest).2) := by
  rw [values, if_neg (by simpa using head)]
  cases opening with
  | function name =>
    simp only [reading, Opening.reading]
    simp only [Opening.due, Position.after_cons] at inside
    simp [inside, Opening.value]
  | block bracket =>
    obtain rfl : w = [] := List.length_eq_zero_iff.mp (Nat.succ.inj fits)
    simp only [reading, Opening.reading]
    simp only [Opening.due, Position.after_cons, Position.after_nil] at inside
    simp [inside, Opening.value]

end

end Scanner

namespace Scans

variable {closing : Option CodePoint} {pieces : List Piece} {after : Text}

theorem stops (scans : Scans closing pieces after) :
    ∀ c rest, after = c :: rest → closing = some c := by
  induction scans with
  | stop stops => exact stops
  | leaf _ _ _ _ ih => exact ih
  | nest _ _ _ _ _ _ _ ih => exact ih

theorem after_eq_nil (scans : Scans none pieces after) : after = [] := by
  cases after with
  | nil => rfl
  | cons c rest => exact absurd (scans.stops c rest rfl) (by simp)

theorem exists_of_length (size : Nat) (closing : Option CodePoint) (text : Text) (bound : text.length ≤ size) :
    ∃ pieces after, text = textOf pieces ++ after ∧ Scans closing pieces after := by
  induction size generalizing closing text with
  | zero =>
    obtain rfl : text = [] := List.length_eq_zero_iff.mp (by omega)
    exact ⟨[], [], rfl, .stop (by simp)⟩
  | succ size ih =>
    rcases text with _ | ⟨c, rest⟩
    · exact ⟨[], [], rfl, .stop (by simp)⟩
    by_cases head : some c = closing
    · refine ⟨[], c :: rest, rfl, .stop ?_⟩
      intro d more same
      rw [← head, (List.cons.inj same).1]
    obtain ⟨w, t, rfl, taken⟩ := Scanner.exists_taken c rest
    have anyFuel : ∀ fuel, (c :: (w ++ t)).length ≤ fuel → Scanner.read fuel (c :: (w ++ t)) =
        Scanner.read (c :: (w ++ t)).length (c :: (w ++ t)) :=
      fun fuel enough => Scanner.read_fuel (Nat.le_refl _) enough
    have shorter : t.length ≤ size := by
      simp only [List.length_cons, List.length_append] at bound
      omega
    have nested : ∀ opening : Opening, Scanner.read (c :: (w ++ t)).length (c :: (w ++ t)) =
        opening.reading (c :: w).length → opening.Fits (c :: w) →
        ∃ pieces after, c :: (w ++ t) = textOf pieces ++ after ∧ Scans closing pieces after := by
      intro opening reading fits
      rw [reading] at anyFuel
      obtain ⟨inner, rest, rfl, inside⟩ := ih (some opening.due) t shorter
      rcases rest with _ | ⟨d, rest⟩
      · exact ⟨[.nest (c :: w) opening inner []], [], by simp [textOf, Piece.text],
          .nest head (by simpa [textOf] using anyFuel) fits (.inr ⟨rfl, rfl, rfl⟩)
            (by simpa [textOf] using inside) (.stop (by simp))⟩
      · obtain rfl : opening.due = d := by simpa using inside.stops d rest rfl
        rw [List.length_append, List.length_cons] at shorter
        obtain ⟨more, after, rfl, scans⟩ := ih closing rest (by omega)
        exact ⟨.nest (c :: w) opening inner [opening.due] :: more, after,
          by simp [Piece.textOf_nest], .nest head anyFuel fits (.inl rfl) inside scans⟩
    cases reading : Scanner.read (c :: (w ++ t)).length (c :: (w ++ t)) with
    | tokens lexemes length =>
      rw [reading] at taken anyFuel
      obtain rfl : length = (c :: w).length := taken
      obtain ⟨pieces, after, rfl, scans⟩ := ih closing t shorter
      obtain ⟨kind, rfl, fits⟩ := Scanner.exists_leaf reading
      exact ⟨.leaf (c :: w) kind :: pieces, after, by simp [Piece.textOf_leaf],
        .leaf head anyFuel fits scans⟩
    | function name length =>
      rw [reading] at taken
      obtain rfl : length = (c :: w).length := taken
      exact nested (.function name) reading trivial
    | block bracket =>
      rw [reading] at taken
      exact nested (.block bracket) reading taken.symm

theorem exists_whole (text : Text) : ∃ pieces, textOf pieces = text ∧ Scans none pieces [] := by
  obtain ⟨pieces, after, rfl, scans⟩ := exists_of_length text.length none text (Nat.le_refl _)
  obtain rfl := scans.after_eq_nil
  exact ⟨pieces, by simp, scans⟩

theorem values_eq (scans : Scans closing pieces after) (fuel : Nat) (p : Position)
    (enough : (textOf pieces ++ after).length < fuel) :
    Scanner.values fuel closing p (textOf pieces ++ after) =
      (Piece.valuesOf p pieces, p.after (textOf pieces ++ after.take 1), after.drop 1) := by
  obtain ⟨fuel, rfl⟩ : ∃ k, fuel = k + 1 := ⟨fuel - 1, by omega⟩
  induction scans generalizing fuel p with
  | @stop closing after stops =>
    rcases after with _ | ⟨c, rest⟩
    · simp [Scanner.values, textOf, Piece.valuesOf]
    · simp [Scanner.values, textOf, Piece.valuesOf, stops c rest rfl]
  | @leaf closing c w kind more after head reading fits rest ih =>
    rw [Piece.textOf_leaf, List.cons_append] at enough ⊢
    simp only [List.length_cons, List.length_append] at enough
    obtain ⟨fuel, rfl⟩ : ∃ k, fuel = k + 1 := ⟨fuel - 1, by omega⟩
    rw [Scanner.values_tokens head (reading _ (by simp; omega)),
      ih (p.after (c :: w)) fuel (by simp; omega)]
    simp [Piece.valuesOf, Piece.values, Piece.text, textOf, Position.after_append]
  | @nest closing c w opening inner more last after head reading fits closed inside rest ihInside ih =>
    rw [Piece.textOf_nest, List.cons_append] at enough ⊢
    simp only [List.length_cons, List.length_append] at enough
    obtain ⟨fuel, rfl⟩ : ∃ k, fuel = k + 1 := ⟨fuel - 1, by omega⟩
    have content := ihInside (p.after (c :: w)) fuel (by simp; omega)
    rw [Scanner.values_nest head (reading _ (by simp; omega)) fits content]
    rcases closed with rfl | ⟨rfl, rfl, rfl⟩
    · have tail := ih ((p.after (c :: w)).after (textOf inner ++ [opening.due])) fuel
        (by simp; omega)
      simp only [List.cons_append, List.nil_append, List.take_succ_cons, List.take_zero,
        List.drop_succ_cons, List.drop_zero]
      rw [tail]
      simp [Piece.valuesOf, Piece.values, Piece.text, textOf, Position.after_append]
    · simp [Scanner.values, Piece.valuesOf, Piece.values, Piece.text, textOf,
        Position.after_append]

theorem valuesOf_eq {source : Text} (whole : textOf pieces = normalized source)
    (scans : Scans none pieces []) : valuesOf source = Piece.valuesOf .first pieces := by
  have values := scans.values_eq ((normalized source).length + 1) .first (by simp [whole])
  rw [whole, List.append_nil] at values
  rw [valuesOf, values]

end Scans

end ClassMigration.Stylesheet
