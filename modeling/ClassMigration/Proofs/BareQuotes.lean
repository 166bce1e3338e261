import ClassMigration.Proofs.Script.Requoting

/-! Bare quotes, those that no backslash pairs with. A body moved into a quote gets a backslash before each of its
bare quotes and stays the same elsewhere. The first bare quote behind the opening one is then the last character,
unless a backslash at the end of the body is left without a partner: that one takes the closing quote. -/
namespace ClassMigration.Text

open Script.Quotation (mark_ne_backslash)

/-- The last backslash of the text has no character to pair with. Pairs are made from the left. -/
def dangles (text : Text) : Bool := text.foldl (fun pending c => !pending && c == .char '\\') false

/-- The offsets of the bare quotes, in order: no backslash in front is left to pair with one of these. -/
def bareQuotes (quote : CodePoint) (text : Text) : List Nat :=
  (List.range text.length).filter fun i => text[i]? == some quote && !dangles (text.take i)

/-- Where characters come to stand that are put in at these offsets: each is moved by those before it. -/
def moved (offsets : List Nat) : List Nat := offsets.mapIdx fun before i => i + before

/-- A backslash is put in at each of these offsets, the last first so that it does not move the others. -/
def escapedAt (offsets : List Nat) (text : Text) : Text :=
  offsets.foldr (fun i text => text.insertIdx i '\\') text

/-- The characters at these offsets are taken out, the last first. -/
def erasedAt (offsets : List Nat) (text : Text) : Text := offsets.foldr (fun i text => text.eraseIdx i) text

/-- Induction on a written body: its pairs, and its single characters with the bare quotes among them. -/
@[elab_as_elim]
theorem written_induction (quote : Quote) {motive : Text → Prop} (nil : motive []) (backslash : motive [.char '\\'])
    (pair : ∀ c rest, motive rest → motive ('\\' :: c :: rest))
    (bare : ∀ rest, motive rest → motive (quote.mark :: rest))
    (other : ∀ (c : CodePoint) (rest : Text), c ≠ '\\' → c ≠ quote.mark → motive rest → motive (c :: rest)) :
    ∀ body, motive body
  | [] => nil
  | c :: rest => by
    by_cases isEscape : c = '\\'
    · subst isEscape
      match rest with
      | [] => exact backslash
      | c :: rest => exact pair c rest (written_induction quote nil backslash pair bare other rest)
    have behind := written_induction quote nil backslash pair bare other rest
    by_cases isQuote : c = quote.mark
    · exact isQuote ▸ bare rest behind
    · exact other c rest isEscape isQuote behind

section Cases

variable {quote : Quote} {c : CodePoint} {rest : Text}

@[simp] theorem dangles_nil : dangles [] = false := rfl

@[simp] theorem dangles_pair (c : CodePoint) (rest : Text) : dangles ('\\' :: c :: rest) = dangles rest := rfl

theorem dangles_cons (notEscape : c ≠ '\\') (rest : Text) : dangles (c :: rest) = dangles rest := by
  have single : (c == '\\') = false := by simpa using notEscape
  rw [dangles, List.foldl_cons, single]
  rfl

theorem bareQuotes_cons (quote : CodePoint) (notEscape : c ≠ '\\') (rest : Text) : bareQuotes quote (c :: rest) =
    if c = quote then 0 :: (bareQuotes quote rest).map (· + 1) else (bareQuotes quote rest).map (· + 1) := by
  simp only [bareQuotes, List.length_cons, List.range_succ_eq_map, List.filter_cons, List.filter_map]
  simp [Function.comp_def, dangles_cons notEscape]

@[simp] theorem bareQuotes_backslash (quote : Quote) : bareQuotes quote.mark [.char '\\'] = [] := by
  cases quote <;> rfl

@[simp] theorem bareQuotes_pair (quote : Quote) (c : CodePoint) (rest : Text) :
    bareQuotes quote.mark ('\\' :: c :: rest) = ((bareQuotes quote.mark rest).map (· + 1)).map (· + 1) := by
  simp only [bareQuotes, List.length_cons, List.range_succ_eq_map, List.map_cons, List.filter_cons,
    List.filter_map, List.map_map]
  simp [(mark_ne_backslash quote).symm, dangles, Function.comp_def]

@[simp] theorem bareQuotes_bare (quote : Quote) (rest : Text) :
    bareQuotes quote.mark (quote.mark :: rest) = 0 :: (bareQuotes quote.mark rest).map (· + 1) := by
  rw [bareQuotes_cons _ (mark_ne_backslash quote), if_pos rfl]

theorem bareQuotes_other (notEscape : c ≠ '\\') (notQuote : c ≠ quote.mark) :
    bareQuotes quote.mark (c :: rest) = (bareQuotes quote.mark rest).map (· + 1) := by
  rw [bareQuotes_cons _ notEscape, if_neg notQuote]

theorem bareQuotes_concat (quote : CodePoint) (text : Text) : bareQuotes quote (text ++ [quote]) =
    bareQuotes quote text ++ if dangles text then [] else [text.length] := by
  -- in front of the quote that is added nothing changes
  have same : ∀ i ∈ List.range text.length,
      ((text ++ [quote])[i]? == some quote && !dangles ((text ++ [quote]).take i)) =
        (text[i]? == some quote && !dangles (text.take i)) := by
    intro i mem
    have inside := List.mem_range.mp mem
    rw [List.getElem?_append_left inside, List.take_append_of_le_length (Nat.le_of_lt inside)]
  rw [bareQuotes, List.length_append, List.length_singleton, List.range_succ, List.filter_append,
    List.filter_congr same, ← bareQuotes]
  cases dangling : dangles text <;> simp [dangling]

@[simp] theorem requotedBody_bare (quote : Quote) (rest : Text) :
    requotedBody [quote.mark] (quote.mark :: rest) = .char '\\' :: quote.mark :: requotedBody [quote.mark] rest := by
  rw [requotedBody_cons _ (mark_ne_backslash quote), if_pos rfl]

theorem requotedBody_other (notEscape : c ≠ '\\') (notQuote : c ≠ quote.mark) :
    requotedBody [quote.mark] (c :: rest) = c :: requotedBody [quote.mark] rest := by
  rw [requotedBody_cons _ notEscape, if_neg (by simpa using notQuote)]

end Cases

theorem head?_bareQuotes (quote : Quote) (text : Text) :
    (bareQuotes quote.mark text).head? = bareQuote? quote.mark text := by
  induction text using written_induction quote with
  | nil => rfl
  | backslash => rw [bareQuotes_backslash, bareQuote?, List.head?_nil]
  | pair c rest ih => simp [bareQuote?, ← ih, Function.comp_def]
  | bare rest => rw [bareQuotes_bare, bareQuote?_cons (mark_ne_backslash quote), if_pos rfl, List.head?_cons]
  | other c rest notEscape notQuote ih =>
    rw [bareQuotes_other notEscape notQuote, bareQuote?_cons notEscape, if_neg notQuote, List.head?_map, ih]

theorem moved_cons (i : Nat) (offsets : List Nat) : moved (i :: offsets) = i :: (moved offsets).map (· + 1) := by
  rw [moved, List.mapIdx_cons, moved]
  refine congrArg (i :: ·) (List.ext_getElem (by simp) fun before _ _ => ?_)
  simp [Nat.add_assoc]

theorem moved_map_succ (offsets : List Nat) : moved (offsets.map (· + 1)) = (moved offsets).map (· + 1) := by
  refine List.ext_getElem (by simp [moved]) fun before _ _ => ?_
  simp [moved, Nat.add_right_comm]

theorem foldr_map_succ (act : Nat → Text → Text) (behind : ∀ i c text, act (i + 1) (c :: text) = c :: act i text)
    (offsets : List Nat) (c : CodePoint) (text : Text) :
    (offsets.map (· + 1)).foldr act (c :: text) = c :: offsets.foldr act text := by
  induction offsets with
  | nil => rfl
  | cons i offsets ih => rw [List.map_cons, List.foldr_cons, ih, behind, List.foldr_cons]

theorem escapedAt_map_succ (offsets : List Nat) (c : CodePoint) (text : Text) :
    escapedAt (offsets.map (· + 1)) (c :: text) = c :: escapedAt offsets text :=
  foldr_map_succ (fun i text => text.insertIdx i '\\') (fun _ _ _ => List.insertIdx_succ_cons) offsets c text

theorem erasedAt_map_succ (offsets : List Nat) (c : CodePoint) (text : Text) :
    erasedAt (offsets.map (· + 1)) (c :: text) = c :: erasedAt offsets text :=
  foldr_map_succ (fun i text => text.eraseIdx i) (fun _ _ _ => List.eraseIdx_cons_succ) offsets c text

theorem escapedAt_zero_cons (offsets : List Nat) (text : Text) :
    escapedAt (0 :: offsets) text = .char '\\' :: escapedAt offsets text := rfl

theorem erasedAt_zero_cons (offsets : List Nat) (c : CodePoint) (text : Text) :
    erasedAt (0 :: offsets.map (· + 1)) (c :: text) = erasedAt offsets text := by
  rw [erasedAt, List.foldr_cons, ← erasedAt, erasedAt_map_succ, List.eraseIdx_cons_zero]

section Requoted

variable (quote : Quote) (body : Text)

theorem requotedBody_eq_escapedAt :
    requotedBody [quote.mark] body = escapedAt (bareQuotes quote.mark body) body := by
  induction body using written_induction quote with
  | nil => rfl
  | backslash =>
    rw [bareQuotes_backslash]
    rfl
  | pair c rest ih => rw [requotedBody, bareQuotes_pair, escapedAt_map_succ, escapedAt_map_succ, ih]
  | bare rest ih => rw [requotedBody_bare, bareQuotes_bare, escapedAt_zero_cons, escapedAt_map_succ, ih]
  | other c rest notEscape notQuote ih =>
    rw [requotedBody_other notEscape notQuote, bareQuotes_other notEscape notQuote, escapedAt_map_succ, ih]

theorem erasedAt_requotedBody :
    erasedAt (moved (bareQuotes quote.mark body)) (requotedBody [quote.mark] body) = body := by
  induction body using written_induction quote with
  | nil => rfl
  | backslash =>
    rw [bareQuotes_backslash]
    rfl
  | pair c rest ih =>
    rw [requotedBody, bareQuotes_pair, moved_map_succ, moved_map_succ, erasedAt_map_succ, erasedAt_map_succ, ih]
  | bare rest ih =>
    rw [requotedBody_bare, bareQuotes_bare, moved_cons, moved_map_succ, erasedAt_zero_cons, erasedAt_map_succ, ih]
  | other c rest notEscape notQuote ih =>
    rw [requotedBody_other notEscape notQuote, bareQuotes_other notEscape notQuote, moved_map_succ,
      erasedAt_map_succ, ih]

theorem getElem?_requotedBody :
    ∀ i ∈ moved (bareQuotes quote.mark body), (requotedBody [quote.mark] body)[i]? = some (.char '\\') := by
  induction body using written_induction quote with
  | nil => exact List.forall_mem_nil _
  | backslash =>
    rw [bareQuotes_backslash]
    exact List.forall_mem_nil _
  | pair c rest ih => simpa [requotedBody, moved_map_succ, -List.map_map] using ih
  | bare rest ih => simpa [moved_cons, moved_map_succ] using ih
  | other c rest notEscape notQuote ih =>
    rw [requotedBody_other notEscape notQuote, bareQuotes_other notEscape notQuote, moved_map_succ]
    simpa using ih

theorem bareQuotes_requotedBody : bareQuotes quote.mark (requotedBody [quote.mark] body) = [] := by
  induction body using written_induction quote with
  | nil => rfl
  | backslash => exact bareQuotes_backslash quote
  | pair c rest ih => simp [requotedBody, ih]
  | bare rest ih => simp [ih]
  | other c rest notEscape notQuote ih =>
    rw [requotedBody_other notEscape notQuote, bareQuotes_other notEscape notQuote, ih, List.map_nil]

theorem requotedBody_requotedBody :
    requotedBody [quote.mark] (requotedBody [quote.mark] body) = requotedBody [quote.mark] body := by
  rw [requotedBody_eq_escapedAt quote (requotedBody _ _), bareQuotes_requotedBody]
  rfl

theorem dangles_requotedBody : dangles (requotedBody [quote.mark] body) = dangles body := by
  induction body using written_induction quote with
  | nil => rfl
  | backslash => rfl
  | pair c rest ih => rw [requotedBody, dangles_pair, dangles_pair, ih]
  | bare rest ih => rw [requotedBody_bare, dangles_pair, dangles_cons (mark_ne_backslash quote), ih]
  | other c rest notEscape notQuote ih =>
    rw [requotedBody_other notEscape notQuote, dangles_cons notEscape, dangles_cons notEscape, ih]

/-- Put in a quote, a body becomes a literal whose opening quote is closed by the first bare one, which is the last
character; if a backslash is left over at its end, nothing closes the literal. The body has got a backslash before
each of its bare quotes, and without these it is as it was. What now stands between the quotes can be put in them
again and stays the same. -/
theorem requoted_closed :
    let mark := quote.mark
    let put := moved (bareQuotes mark body)
    ∃ inner : Text, body.requoted [mark] = mark :: (inner ++ [mark]) ∧
      bareQuote? mark (inner ++ [mark]) = (if dangles body then none else some inner.length) ∧
      inner = escapedAt (bareQuotes mark body) body ∧
      (∀ i ∈ put, inner[i]? = some (.char '\\')) ∧ erasedAt put inner = body ∧
      inner.requoted [mark] = body.requoted [mark] := by
  intro mark put
  refine ⟨requotedBody [mark] body, rfl, ?closed, requotedBody_eq_escapedAt quote body,
    getElem?_requotedBody quote body, erasedAt_requotedBody quote body, ?again⟩
  case closed =>
    rw [← head?_bareQuotes, bareQuotes_concat, bareQuotes_requotedBody, dangles_requotedBody]
    cases dangles body <;> rfl
  case again => rw [requoted, requotedBody_requotedBody, requoted]

/-- The two backslashes are a pair, so the quote behind them is bare; the other quote has a backslash of its own. -/
example : requoted "\\\\'\\'".codePoints [.char '\''] = "'\\\\\\'\\''".codePoints := by decide

end Requoted

end ClassMigration.Text
