import ClassMigration.Proofs.Script.Spelling

/-! Literals edited as they are written. A new ending behind an ampersand changes a literal's value by the
same ending, whatever escapes stand before it, and a body moved into another quote keeps its value. -/
namespace ClassMigration

namespace Text

/-- The offset of the first bare quote; a backslash takes the character behind it with it. -/
def bareQuote? (quote : CodePoint) : Text → Option Nat
  | [] => none
  | ['\\'] => none
  | '\\' :: _ :: rest => (bareQuote? quote rest).map (· + 2)
  | c :: rest => if c = quote then some 0 else (bareQuote? quote rest).map (· + 1)

variable {quote : CodePoint} {c : CodePoint} {rest : Text}

theorem bareQuote?_cons (notEscape : c ≠ '\\') :
    bareQuote? quote (c :: rest) = if c = quote then some 0 else (bareQuote? quote rest).map (· + 1) := by
  rw [bareQuote?]
  · rintro rfl; exact absurd rfl notEscape
  · rintro _ _ rfl; exact absurd rfl notEscape

theorem requotedBody_cons (quote : Text) (notEscape : c ≠ '\\') :
    requotedBody quote (c :: rest) =
      if [c] = quote then .char '\\' :: c :: requotedBody quote rest else c :: requotedBody quote rest := by
  rw [requotedBody]
  · rintro rfl; exact absurd rfl notEscape
  · rintro _ _ rfl; exact absurd rfl notEscape

end Text

namespace Script.Quotation

open Text (bareQuote? bareQuote?_cons requotedBody requotedBody_cons)

/-- A character that stands for itself between quotes of either kind. -/
def Plain (c : CodePoint) : Prop := c ≠ '\\' ∧ c ≠ '\'' ∧ c ≠ '"' ∧ endsLine c = false

instance : DecidablePred Plain := fun _ => inferInstanceAs (Decidable (_ ∧ _ ∧ _ ∧ _))

variable {quote : Quote} {written value front tail more rest meaning : Text} {octal : Bool} {c : CodePoint}

theorem Plain.ne_mark (plain : Plain c) (quote : Quote) : c ≠ quote.mark := by
  cases quote
  · exact plain.2.1
  · exact plain.2.2.1

theorem Inner.ne_mark (inner : Inner c) (quote : Quote) : c ≠ quote.mark := by
  cases quote
  · exact inner.2.1
  · exact inner.2.2.1

theorem spells_plain (quote : Quote) (plain : ∀ c ∈ tail, Plain c) : Spells quote.mark tail tail false := by
  induction tail with
  | nil => exact .done
  | cons c tail ih =>
    obtain ⟨own, plain⟩ := List.forall_mem_cons.mp plain
    exact .plain own.1 (own.ne_mark quote) own.2.2.2 (ih plain)

theorem Spells.of_plain (plain : ∀ c ∈ written, Plain c) (spells : Spells quote.mark written value octal) :
    value = written ∧ octal = false := by
  induction spells with
  | done => exact ⟨rfl, rfl⟩
  | plain _ _ _ _ ih =>
    obtain ⟨rfl, rfl⟩ := ih (List.forall_mem_cons.mp plain).2
    exact ⟨rfl, rfl⟩
  | escaped => exact absurd rfl (List.forall_mem_cons.mp plain).1.1

/-- An ampersand after a backslash is the whole escape and stands for itself. -/
theorem Escape.of_ampersand {behind : Text} (spelled : Escape '&' more behind meaning octal) :
    more = [] ∧ meaning = [.char '&'] ∧ octal = false :=
  spelled.alone fun _ => .self _ (by decide) (by decide)

/-- An ampersand behind an escape's first character stands behind the escape. -/
theorem Escape.split_ampersand {first : CodePoint} {behind : Text}
    (spelled : Escape first more behind meaning octal) (split : more ++ rest = front ++ .char '&' :: tail) :
    ∃ between, front = more ++ between ∧ rest = between ++ .char '&' :: tail := by
  rcases List.append_eq_append_iff.mp split with found | ⟨between, rfl, found⟩
  · exact found
  · cases between with
    | nil => exact ⟨[], by simp, found.symm⟩
    | cons d between =>
      obtain ⟨rfl, -⟩ := List.cons.inj found
      exact absurd rfl (spelled.inner '&' (by simp)).2.2.2

/-- Behind an ampersand a plain ending of the body is the ending of its value, and any other plain ending can
stand there instead. -/
theorem Spells.exchange (plain : ∀ c ∈ tail, Plain c) (spells : Spells quote.mark written value octal)
    (split : written = front ++ .char '&' :: tail) :
    ∃ start, value = start ++ .char '&' :: tail ∧ ∀ tail', (∀ c ∈ tail', Plain c) →
      Spells quote.mark (front ++ .char '&' :: tail') (start ++ .char '&' :: tail') octal := by
  have ampersand : Plain '&' := by decide
  have plainly (tail' : Text) (plain : ∀ c ∈ tail', Plain c) :
      Spells quote.mark ('&' :: tail') ('&' :: tail') false :=
    spells_plain quote (List.forall_mem_cons.mpr ⟨ampersand, plain⟩)
  induction spells generalizing front with
  | done => simp at split
  | @plain c written value octal notEscape notQuote inLine spells ih =>
    cases front with
    | nil =>
      obtain ⟨rfl, rfl⟩ : c = '&' ∧ written = tail := by simpa using split
      obtain ⟨rfl, rfl⟩ := spells.of_plain plain
      exact ⟨[], rfl, plainly⟩
    | cons d front =>
      obtain ⟨same, behind⟩ : c = d ∧ written = front ++ .char '&' :: tail := by simpa using split
      subst same
      obtain ⟨start, rfl, others⟩ := ih behind
      exact ⟨c :: start, rfl, fun tail' plain' => .plain notEscape notQuote inLine (others tail' plain')⟩
  | @escaped first more written meaning value octal octals spelled spells ih =>
    match front with
    | [] => simp at split
    | [d] =>
      -- the escape is the ampersand's own
      obtain ⟨same, rfl, behind⟩ : '\\' = d ∧ first = '&' ∧ more ++ written = tail := by simpa using split
      obtain ⟨rfl, rfl, rfl⟩ := spelled.of_ampersand
      obtain rfl : written = tail := behind
      obtain ⟨rfl, rfl⟩ := spells.of_plain plain
      refine ⟨[], rfl, fun tail' plain' => ?_⟩
      rw [← same]
      exact .escaped (Escape.self _ (by decide) (by decide)) (spells_plain quote plain')
    | d :: e :: front =>
      obtain ⟨same, same', behind⟩ : .char '\\' = d ∧ first = e ∧ more ++ written = front ++ .char '&' :: tail := by
        simpa using split
      obtain ⟨between, rfl, rfl⟩ := spelled.split_ampersand behind
      obtain ⟨start, rfl, others⟩ := ih rfl
      refine ⟨meaning ++ start, by simp, fun tail' plain' => ?_⟩
      have before : Escape first more (between ++ .char '&' :: tail' ++ [quote.mark]) meaning octal := by
        refine spelled.alike (.inl ?_)
        rw [List.append_assoc, List.append_assoc]
        exact head?_append_cons between '&' _ _
      rw [← same, ← same']
      simpa using Spells.escaped before (others tail' plain')

theorem requotedBody_inner (quote : Quote) (inner : ∀ c ∈ more, Inner c) :
    requotedBody [quote.mark] (more ++ rest) = more ++ requotedBody [quote.mark] rest := by
  induction more with
  | nil => rfl
  | cons c more ih =>
    obtain ⟨own, inner⟩ := List.forall_mem_cons.mp inner
    rw [List.cons_append, requotedBody_cons _ own.1, if_neg (by simpa using own.ne_mark quote), ih inner,
      List.cons_append]

theorem requotedBody_escape (quote : Quote) (first : CodePoint) (inner : ∀ c ∈ more, Inner c) :
    requotedBody [quote.mark] ('\\' :: first :: (more ++ rest)) =
      .char '\\' :: first :: (more ++ requotedBody [quote.mark] rest) := by
  rw [requotedBody, requotedBody_inner quote inner]

theorem Spells.requotedBody_own (spells : Spells quote.mark written value octal) :
    requotedBody [quote.mark] written = written := by
  induction spells with
  | done => rfl
  | plain notEscape notQuote _ _ ih =>
    rw [requotedBody_cons _ notEscape, if_neg (by simpa using notQuote), ih]
  | escaped spelled _ ih => rw [requotedBody_escape quote _ spelled.inner, ih]

theorem closes_mark (quote : Quote) : Closes quote.mark := by
  cases quote <;> exact ⟨by decide, by decide⟩

/-- An escape in front of a body cannot tell whether the body is moved into another quote. -/
theorem alike_requoted (quote other : Quote) (written : Text) :
    Alike (written ++ [quote.mark]) (requotedBody [other.mark] written ++ [other.mark]) := by
  have escaping : Closes '\\' := by exact ⟨by decide, by decide⟩
  cases written with
  | nil => exact .inr ⟨by simpa using closes_mark quote, by simpa [requotedBody] using closes_mark other⟩
  | cons c written =>
    by_cases escape : c = '\\'
    · subst escape
      cases written <;> exact .inl rfl
    · rw [requotedBody_cons _ escape]
      split
      case isTrue same =>
        obtain rfl : c = other.mark := by simpa using same
        exact .inr ⟨by simpa using closes_mark other, by simpa using escaping⟩
      case isFalse => exact .inl rfl

theorem Spells.requoted (other : Quote) (spells : Spells quote.mark written value octal) :
    Spells other.mark (requotedBody [other.mark] written) value octal := by
  induction spells with
  | done => exact .done
  | @plain c written value octal notEscape notQuote inLine spells ih =>
    rw [requotedBody_cons _ notEscape]
    split
    case isTrue isOther =>
      obtain rfl : c = other.mark := by simpa using isOther
      have spelled :
          Escape other.mark [] (requotedBody [other.mark] written ++ [other.mark]) [other.mark] false :=
        .self _ (by cases other <;> decide) inLine
      exact .escaped spelled ih
    case isFalse notOther => exact .plain notEscape (by simpa using notOther) inLine ih
  | escaped spelled _ ih =>
    rw [requotedBody_escape other _ spelled.inner]
    exact .escaped (spelled.alike (alike_requoted quote other _)) ih

theorem bareQuote?_inner (quote : Quote) (inner : ∀ c ∈ more, Inner c) :
    bareQuote? quote.mark (more ++ rest) = (bareQuote? quote.mark rest).map (· + more.length) := by
  induction more with
  | nil => simp
  | cons c more ih =>
    obtain ⟨own, inner⟩ := List.forall_mem_cons.mp inner
    rw [List.cons_append, bareQuote?_cons own.1, if_neg (own.ne_mark quote), ih inner, Option.map_map]
    rfl

theorem Spells.bareQuote? (rest : Text) (spells : Spells quote.mark written value octal) :
    Text.bareQuote? quote.mark (written ++ quote.mark :: rest) = some written.length := by
  induction spells with
  | done => rw [List.nil_append, bareQuote?_cons (mark_ne_backslash quote), if_pos rfl, List.length_nil]
  | plain notEscape notQuote _ _ ih =>
    rw [List.cons_append, bareQuote?_cons notEscape, if_neg notQuote, ih]
    rfl
  | escaped spelled _ ih =>
    rw [List.cons_append, List.cons_append, List.append_assoc, Text.bareQuote?,
      bareQuote?_inner quote spelled.inner, ih]
    simp
    omega

end Script.Quotation

end ClassMigration
