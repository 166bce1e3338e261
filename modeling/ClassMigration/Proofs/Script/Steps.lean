import Mathlib
import ClassMigration.Proofs.Script.Standing

/-! Steps of the parser. While the script's own tokens are read, the token ahead stands in the script. Once one
of them has been read, nothing but blanks and comments separates it from the token ahead. -/
namespace ClassMigration.Script

open Std.Do
open Parse
open Made (Stands)

set_option mvcgen.warning false

structure Region where
  source : Text
  start : Nat

namespace Region

variable (r : Region)

structure Shows (start : Cursor) (ahead : Token) (cursor : Cursor) : Prop where
  onward : r.start ≤ start.index
  place : start.At r.source
  taken : Taken start ahead cursor

/-- The token ahead is the script's own. -/
def Ready (s : State) : Prop := r.Shows s.start s.ahead s.cursor

/-- The token ahead has been given back. -/
def Open (s : State) : Prop := r.start ≤ s.cursor.index ∧ s.cursor.At r.source

/-- A token of the region has been read, and the token ahead follows it. -/
structure Passed (s : State) : Prop where
  onward : r.start ≤ s.last.index
  follows : s.last.index ≤ s.start.index
  clear : Clear r.source s.last.index s.start.index

variable {r : Region} {s : State}

theorem Ready.later (ready : r.Ready s) : r.start ≤ s.start.index := ready.onward

theorem Ready.isOpen (ready : r.Ready s) : r.Open s :=
  ⟨ready.onward.trans ready.taken.onward.le, ready.taken.onward.place ready.place⟩

/-- What begins with the token ahead lies in a region of its own. -/
theorem Ready.narrow (ready : r.Ready s) : Region.Ready ⟨r.source, s.start.index⟩ s :=
  ⟨Nat.le_refl _, ready.place, ready.taken⟩

theorem Ready.widen {start : Nat} (ready : Region.Ready ⟨r.source, start⟩ s) (order : r.start ≤ start) :
    r.Ready s :=
  ⟨Nat.le_trans order ready.onward, ready.place, ready.taken⟩

theorem Ready.written {value written : Text} {octal : Bool} (ready : r.Ready s)
    (same : s.ahead.lexeme = .string value written octal) : written ≠ [] := ready.taken.written same

@[simp] theorem ready_mk {bound : Nat} {cursor start : Cursor} {braces : List Brace} {ahead : Token}
    {newline : Bool} {last : Mark} {context : Context} :
    r.Ready ⟨bound, cursor, braces, ahead, newline, start, last, context⟩ ↔ r.Shows start ahead cursor := Iff.rfl

@[simp] theorem shows_iff : r.Shows s.start s.ahead s.cursor ↔ r.Ready s := Iff.rfl

end Region

theorem Region.Ready.chunk {r : Region} {s : State} {raw : Text} {opens closes : Bool} (ready : r.Ready s)
    (same : s.ahead.lexeme = .chunk raw opens closes) :
    (Literal.chunkOf raw s.ahead).Stands r.source closes := by
  obtain ⟨opening, more, delimiter, rest, stop⟩ := ready.taken.chunk same
  refine ⟨opening, more, delimiter, ?_, ?_⟩
  · change r.source.drop s.ahead.start = _
    rw [ready.taken.begins, ← ready.place, rest]
    rfl
  · rw [← ready.taken.begins, ← ready.taken.ends] at stop
    exact stop

theorem Region.Passed.member {r : Region} {s : State} {object property : Node} {computed : Bool}
    (passed : r.Passed s) :
    (Node.member object property computed ⟨r.start, s.last.index⟩).Fits r.source r.start s.start.index :=
  ⟨Nat.le_refl _, passed.follows, fun found => Nat.le_of_not_lt fun before => passed.clear before found⟩

theorem isMark_inStrictCode {lexeme : Lexeme} {mark : Text} (same : lexeme.inStrictCode = .punctuator mark) :
    lexeme = .punctuator mark := by
  unfold Lexeme.inStrictCode at same
  split at same
  · split at same <;> cases same
  · exact same

theorem chunk_inStrictCode {lexeme : Lexeme} {raw : Text} {opens closes : Bool}
    (same : lexeme.inStrictCode = .chunk raw opens closes) : lexeme = .chunk raw opens closes := by
  unfold Lexeme.inStrictCode at same
  split at same
  · split at same <;> cases same
  · exact same

theorem string_inStrictCode {lexeme : Lexeme} {value written : Text} {octal : Bool}
    (same : lexeme.inStrictCode = .string value written octal) : lexeme = .string value written octal := by
  unfold Lexeme.inStrictCode at same
  split at same
  · split at same <;> cases same
  · exact same

theorem Taken.inStrictCode {start stop : Cursor} {token : Token} (taken : Taken start token stop) :
    Taken start { token with lexeme := token.lexeme.inStrictCode } stop where
  onward := taken.onward
  begins := taken.begins
  ends := taken.ends
  written same := taken.written (string_inStrictCode same)
  mark same := taken.mark (isMark_inStrictCode same)
  chunk same := taken.chunk (chunk_inStrictCode same)

namespace Parse

variable {α β : Type} {r : Region}

theorem bind_ok {step : Parse α} {next : α → Parse β} {s s' : State} {b : β} :
    (step >>= next) s = .ok (b, s') ↔ ∃ a t, step s = .ok (a, t) ∧ next a t = .ok (b, s') := by
  change Except.bind (step s) _ = _ ↔ _
  constructor
  · intro run
    obtain ⟨⟨a, t⟩, first, rest⟩ := bind_eq_ok.mp run
    exact ⟨a, t, first, rest⟩
  · rintro ⟨a, t, first, rest⟩
    exact bind_eq_ok.mpr ⟨(a, t), first, rest⟩

theorem discard_ok {step : Parse α} {u : Unit} {s s' : State} (run : discard step s = .ok (u, s')) :
    ∃ a, step s = .ok (a, s') := by
  change Except.bind (step s) _ = _ at run
  obtain ⟨made, first, same⟩ := bind_eq_ok.mp run
  cases same
  exact ⟨made.1, first⟩

/-- What a step keeps, told of its successful runs. -/
theorem triple_iff {step : Parse α} {P : State → Prop} {Q : α → State → Prop} :
    ⦃fun s => ⌜P s⌝⦄ step ⦃⇓? a s => ⌜Q a s⌝⦄ ↔
      ∀ s, P s → ∀ a s', step s = .ok (a, s') → Q a s' := by
  have ran : ∀ s, (wp⟦step⟧ (⇓? a s => ⌜Q a s⌝) s).down ↔ ∀ a s', step s = .ok (a, s') → Q a s' := by
    intro s
    change (wp⟦step s⟧ (fun made => ⌜Q made.1 made.2⌝, ExceptConds.true)).down ↔ _
    cases run : step s with
    | error fault => exact iff_of_true trivial (fun _ _ same => by cases same)
    | ok made =>
      constructor
      · intro holds a s' same
        cases same
        exact holds
      · intro holds
        exact holds _ _ rfl
  exact ⟨fun h s p => (ran s).mp (h s p), fun h s p => (ran s).mpr (h s p)⟩

abbrev Shape : PostShape := .arg State (.except Fault .pure)

section Looks

variable {Q : PostCond Bool Shape}

@[spec] theorem ahead_spec {Q : PostCond Token Shape} : ⦃fun s => Q.1 s.ahead s⦄ ahead ⦃Q⦄ := by
  mvcgen [ahead]

@[spec] theorem context_spec {Q : PostCond Context Shape} : ⦃fun s => Q.1 s.context s⦄ context ⦃Q⦄ := by
  mvcgen [context]

@[spec] theorem setContext_spec {Q : PostCond Unit Shape} (change : Context → Context) :
    ⦃fun s => Q.1 () { s with context := change s.context }⦄ setContext change ⦃Q⦄ := by
  mvcgen [setContext]

@[spec] theorem here_spec {Q : PostCond Nat Shape} : ⦃fun s => Q.1 s.start.index s⦄ here ⦃Q⦄ := by
  mvcgen [here]

@[spec] theorem spanFrom_spec {Q : PostCond Span Shape} (start : Nat) :
    ⦃fun s => Q.1 ⟨start, s.last.index⟩ s⦄ spanFrom start ⦃Q⦄ := by
  mvcgen [spanFrom]

@[spec] theorem newlineAhead_spec : ⦃fun s => Q.1 s.newline s⦄ newlineAhead ⦃Q⦄ := by
  mvcgen [newlineAhead]

@[spec] theorem atEnd_spec : ⦃fun s => Q.1 (s.ahead.lexeme == .endOfInput) s⦄ atEnd ⦃Q⦄ := by
  mvcgen [atEnd]

@[spec] theorem sees_spec (symbol : String) :
    ⦃fun s => Q.1 (isMark s.ahead.lexeme symbol) s⦄ sees symbol ⦃Q⦄ := by
  mvcgen [sees]

@[spec] theorem seesAny_spec (symbols : List String) :
    ⦃fun s => Q.1 (symbols.any (isMark s.ahead.lexeme)) s⦄ seesAny symbols ⦃Q⦄ := by
  mvcgen [seesAny]

@[spec] theorem seesKeyword_spec (word : String) :
    ⦃fun s => Q.1 (isKeyword s.ahead.lexeme word) s⦄ seesKeyword word ⦃Q⦄ := by
  mvcgen [seesKeyword]

@[spec] theorem seesAnyKeyword_spec (words : List String) :
    ⦃fun s => Q.1 (words.any (isKeyword s.ahead.lexeme)) s⦄ seesAnyKeyword words ⦃Q⦄ := by
  mvcgen [seesAnyKeyword]

@[spec] theorem seesName_spec (name : String) :
    ⦃fun s => Q.1 (isName s.ahead.lexeme name) s⦄ seesName name ⦃Q⦄ := by
  mvcgen [seesName]

end Looks

section Failures

@[spec high] theorem throw_spec (fault : Fault) : ⦃⌜True⌝⦄ (throw fault : Parse α) ⦃⇓? _ _ => ⌜False⌝⦄ :=
  fun _ _ => trivial

@[spec] theorem failAfter_spec (cause : Cause) :
    ⦃⌜True⌝⦄ (failAfter cause : Parse α) ⦃⇓? _ _ => ⌜False⌝⦄ := fun _ _ => trivial

@[spec] theorem failHere_spec (cause : Cause) :
    ⦃⌜True⌝⦄ (failHere cause : Parse α) ⦃⇓? _ _ => ⌜False⌝⦄ := fun _ _ => trivial

@[spec] theorem failAt_spec (token : Token) (cause : Cause) :
    ⦃⌜True⌝⦄ (failAt token cause : Parse α) ⦃⇓? _ _ => ⌜False⌝⦄ := fun _ _ => trivial

@[spec] theorem unexpected_spec (token : Token) :
    ⦃⌜True⌝⦄ (unexpected token : Parse α) ⦃⇓? _ _ => ⌜False⌝⦄ := fun _ _ => trivial

@[spec] theorem unexpectedAhead_spec : ⦃⌜True⌝⦄ (unexpectedAhead : Parse α) ⦃⇓? _ _ => ⌜False⌝⦄ :=
  fun _ _ => trivial

end Failures

/-- What a reader of the script gives, told of its successful runs. -/
theorem triple_of_ok {x : Except Fault α} {Q : α → Prop} (holds : ∀ a, x = .ok a → Q a) :
    ⦃⌜True⌝⦄ x ⦃⇓? a => ⌜Q a⌝⦄ := by
  cases x with
  | error fault => exact fun _ => trivial
  | ok a => exact fun _ => holds a rfl

@[spec] theorem toToken_spec (fuel : Nat) (opening : Bool) (c : Cursor) :
    ⦃⌜True⌝⦄ c.toToken fuel opening
    ⦃⇓? c' => ⌜∀ source, c.At source → Cursor.Onward c c' ∧ Clear source c.index c'.index⌝⦄ :=
  triple_of_ok fun _ read _ place => Cursor.skipBlanks_onward read place

@[spec] theorem token_spec (fuel : Nat) (braces : List Brace) (c : Cursor) :
    ⦃⌜True⌝⦄ Lexer.token fuel braces c ⦃⇓? read => ⌜Taken c read.1 read.2.2⌝⦄ :=
  triple_of_ok fun _ read => Lexer.token_taken read

theorem next_open : ⦃fun s => ⌜r.Open s⌝⦄ next ⦃⇓? _ s => ⌜r.Ready s ∧ r.Passed s⌝⦄ := by
  mvcgen [next]
  case vc1.success.success s isOpen start found read token taken =>
  obtain ⟨onward, clear⟩ := found r.source isOpen.2
  exact ⟨⟨isOpen.1.trans onward.le, onward.place isOpen.2, taken.inStrictCode⟩, isOpen.1, onward.le, clear⟩

abbrev ready (r : Region) : Assertion Shape := fun s => ⌜r.Ready s⌝
abbrev kept (r : Region) : PostCond α Shape := ⇓? _ s => ⌜r.Ready s⌝
abbrev made [Made α] (r : Region) : PostCond α Shape := ⇓? a s => ⌜r.Ready s ∧ Stands r.source a⌝

theorem next_behind {s s' : State} {token : Token} (ready : r.Ready s)
    (read : next s = .ok (token, s')) : token = s.ahead ∧ Region.Ready ⟨r.source, token.stop⟩ s' := by
  have same : ⦃fun t => ⌜t = s⌝⦄ next ⦃⇓? token _ => ⌜token = s.ahead⌝⦄ := by
    mvcgen [next]
    simp_all
  obtain rfl := triple_iff.mp same s rfl token s' read
  have isOpen : Region.Open ⟨r.source, s.ahead.stop⟩ s := ⟨Nat.le_of_eq ready.taken.ends, ready.isOpen.2⟩
  exact ⟨rfl, (triple_iff.mp next_open s isOpen _ s' read).1⟩

def Filled (token : Token) : Prop :=
  ∀ value written octal, token.lexeme = .string value written octal → written ≠ []

@[spec] theorem next_spec : ⦃ready r⦄ next ⦃⇓? token s => ⌜r.Ready s ∧ r.Passed s ∧ Filled token⌝⦄ := by
  refine triple_iff.mpr fun s ready token s' read => ?_
  obtain ⟨after, passed⟩ := triple_iff.mp next_open s ready.isOpen token s' read
  obtain ⟨rfl, -⟩ := next_behind ready read
  exact ⟨after, passed, fun _ _ _ same => ready.written same⟩

@[spec] theorem discard_spec {step : Parse α} (read : ⦃ready r⦄ step ⦃kept r⦄) :
    ⦃ready r⦄ discard step ⦃kept r⦄ := by
  refine triple_iff.mpr fun s ready u s' run => ?_
  obtain ⟨a, first⟩ := discard_ok run
  exact triple_iff.mp read s ready a s' first

@[spec high] theorem discard_next_spec : ⦃ready r⦄ discard next ⦃⇓? _ s => ⌜r.Ready s ∧ r.Passed s⌝⦄ := by
  refine triple_iff.mpr fun s ready u s' run => ?_
  obtain ⟨token, read⟩ := discard_ok run
  exact triple_iff.mp next_open s ready.isOpen token s' read

@[spec] theorem expect_spec (symbol : String) :
    ⦃ready r⦄ expect symbol ⦃⇓? _ s => ⌜r.Ready s ∧ r.Passed s⌝⦄ := by
  mvcgen [expect] with simp_all

/-- A member before a closing parenthesis lies before the token behind it as well. -/
theorem closing_spec (node : Node) :
    ⦃fun s => ⌜r.Ready s ∧ node.Fits r.source r.start s.start.index⌝⦄ expect ")"
    ⦃⇓? _ s => ⌜r.Ready s ∧ node.Fits r.source r.start s.start.index⌝⦄ := by
  refine triple_iff.mpr fun s holds u s' run => ?_
  obtain ⟨ready, fits⟩ := holds
  obtain ⟨after, -⟩ := triple_iff.mp (expect_spec _) s ready u s' run
  obtain ⟨token, t, read, run⟩ := bind_ok.mp run
  obtain ⟨rfl, behind⟩ := next_behind ready read
  by_cases mark : isMark s.ahead.lexeme ")"
  · rw [if_pos mark] at run
    cases run
    have stands : [.char ')'] <+: s.start.rest := ready.taken.mark (by simpa [isMark] using mark)
    have found : r.source[s.start.index]? = some (.char ')') := by
      obtain ⟨more, rest⟩ := stands
      rw [← List.head?_drop, ← ready.place, ← rest]
      rfl
    have onward : s.start.index ≤ s'.start.index := by
      have := behind.onward
      have := ready.taken.onward.le
      have := ready.taken.ends
      simp only at *
      omega
    exact ⟨after, fits.closed found rfl (by decide) onward⟩
  · rw [if_neg mark] at run
    cases run

@[spec] theorem expectKeyword_spec (symbol : String) : ⦃ready r⦄ expectKeyword symbol ⦃kept r⦄ := by
  mvcgen [expectKeyword] with simp_all

@[spec] theorem afterAhead_spec : ⦃ready r⦄ afterAhead ⦃kept r⦄ := by
  mvcgen [afterAhead]

@[spec] theorem regExp_spec (c : Cursor) : ⦃⌜True⌝⦄ RegExp.read c ⦃⇓? c' => ⌜Cursor.Onward c c'⌝⦄ :=
  triple_of_ok fun _ => RegExp.read_onward

@[spec] theorem nextRegExp_spec : ⦃ready r⦄ nextRegExp ⦃kept r⦄ := by
  mvcgen [nextRegExp]
  case vc2.success s ready origin stop onward =>
    refine ⟨ready.onward, ready.place, onward, rfl, rfl, ?_, ?_, ?_⟩ <;> exact fun same => by cases same
  case vc3.success.post.success => exact fun ready _ => ready

@[spec] theorem semicolon_spec : ⦃ready r⦄ semicolon ⦃kept r⦄ := by
  mvcgen [semicolon] with simp_all

@[spec] theorem seesAsyncFunction_spec : ⦃ready r⦄ seesAsyncFunction ⦃kept r⦄ := by
  mvcgen [seesAsyncFunction]

@[spec] theorem seesImportCall_spec : ⦃ready r⦄ seesImportCall ⦃kept r⦄ := by
  mvcgen [seesImportCall]

section Loops

theorem turns_spec {fuel : Nat} {start : α} {step : α → Parse (α ⊕ β)} {P : α → State → Prop}
    {Q : β → State → Prop}
    (keeps : ∀ a, ⦃fun s => ⌜P a s⌝⦄ step a ⦃⇓? made s => ⌜Sum.elim (P · s) (Q · s) made⌝⦄) :
    ⦃fun s => ⌜P start s⌝⦄ turns step fuel start ⦃⇓? b s => ⌜Q b s⌝⦄ := by
  induction fuel generalizing start with
  | zero => exact triple_iff.mpr fun _ _ _ _ run => by cases run
  | succ fuel ih => mvcgen [turns, keeps, ih]

/-- Every turn keeps what holds at the start, up to the one that ends the loop. -/
theorem loop_spec {start : α} {step : α → Parse (α ⊕ β)} {P : α → State → Prop} {Q : β → State → Prop}
    (keeps : ∀ a, ⦃fun s => ⌜P a s⌝⦄ step a ⦃⇓? made s => ⌜Sum.elim (P · s) (Q · s) made⌝⦄) :
    ⦃fun s => ⌜P start s⌝⦄ loop start step ⦃⇓? b s => ⌜Q b s⌝⦄ := by
  have turned (fuel : Nat) : ⦃fun s => ⌜P start s⌝⦄ turns step fuel start ⦃⇓? b s => ⌜Q b s⌝⦄ :=
    turns_spec keeps
  mvcgen [loop, turned]

variable [Made α] [Made β]

theorem loop_keeps {start : α} {step : α → Parse (α ⊕ β)} {P : State → Prop} (begins : Stands r.source start)
    (keeps : ∀ a, Stands r.source a →
      ⦃fun s => ⌜P s⌝⦄ step a ⦃⇓? made s => ⌜P s ∧ Stands r.source made⌝⦄) :
    ⦃fun s => ⌜P s⌝⦄ loop start step ⦃⇓? made s => ⌜P s ∧ Stands r.source made⌝⦄ := by
  have turned := @loop_spec α β start step (fun a s => P s ∧ Stands r.source a)
    (fun b s => P s ∧ Stands r.source b) fun a => triple_iff.mpr fun s holds made s' run => by
      have kept := triple_iff.mp (keeps a holds.2) s holds.1 made s' run
      cases made <;> exact kept
  exact triple_iff.mpr fun s holds => triple_iff.mp turned s ⟨holds, begins⟩

@[spec] theorem loop_made {start : α} {step : α → Parse (α ⊕ β)} (begins : Stands r.source start)
    (keeps : ∀ a, Stands r.source a → ⦃ready r⦄ step a ⦃made r⦄) :
    ⦃ready r⦄ loop start step ⦃made r⦄ := loop_keeps begins keeps

@[spec] theorem whilst_made {more : Parse Bool} {item : Parse α} (looks : ⦃ready r⦄ more ⦃kept r⦄)
    (reads : ⦃ready r⦄ item ⦃made r⦄) : ⦃ready r⦄ whilst more item ⦃made r⦄ := by
  mvcgen [whilst, looks, reads]
  all_goals simp_all

@[spec] theorem itemsUntil_made (closing : String) {item : Parse α} (reads : ⦃ready r⦄ item ⦃made r⦄) :
    ⦃ready r⦄ itemsUntil closing item ⦃made r⦄ := by
  mvcgen [itemsUntil, reads]

@[spec] theorem commaUntil_made (closing : String) {item : Parse α} (reads : ⦃ready r⦄ item ⦃made r⦄) :
    ⦃ready r⦄ commaUntil closing item ⦃made r⦄ := by
  mvcgen [commaUntil, reads]
  all_goals simp_all

end Loops

end Parse

open Parse

abbrev yields (r : Region) : PostCond Node Shape :=
  ⇓? node s => ⌜r.Ready s ∧ Stands r.source node ∧ node.Fits r.source r.start s.start.index⌝

theorem made_of_yields {r : Region} {step : Parse Node} (yields : ⦃ready r⦄ step ⦃yields r⦄) :
    ⦃ready r⦄ step ⦃made r⦄ := by
  mvcgen [yields] with simp_all

/-- An expression may be read as one with which its region begins. -/
theorem yields_of_begins {step : Parse Node}
    (begins : ∀ r : Region, ⦃fun s => ⌜r.Ready s ∧ s.start.index = r.start⌝⦄ step ⦃yields r⦄) (r : Region) :
    ⦃ready r⦄ step ⦃yields r⦄ := by
  refine triple_iff.mpr fun s ready node s' run => ?_
  obtain ⟨after, stands, fits⟩ :=
    triple_iff.mp (begins ⟨r.source, s.start.index⟩) s ⟨ready.narrow, rfl⟩ node s' run
  exact ⟨after.widen ready.later, stands, fits.earlier ready.later⟩

/-- The grammar's own parsers move onward and make trees that stand in the script. -/
class Fair (g : Grammar) : Prop where
  assignment (r : Region) : ⦃ready r⦄ g.assignment ⦃yields r⦄
  unary (r : Region) : ⦃ready r⦄ g.unary ⦃yields r⦄
  power (r : Region) : ⦃ready r⦄ g.power ⦃yields r⦄
  operand (r : Region) : ⦃ready r⦄ g.operand ⦃yields r⦄
  callee (r : Region) : ⦃ready r⦄ g.callee ⦃yields r⦄
  primary (r : Region) : ⦃ready r⦄ g.primary ⦃yields r⦄
  statement (r : Region) : ⦃ready r⦄ g.statement ⦃made r⦄
  item (r : Region) : ⦃ready r⦄ g.item ⦃made r⦄
  pattern (r : Region) (lexical : Bool) : ⦃ready r⦄ g.pattern lexical ⦃made r⦄
  element (r : Region) : ⦃fun s => ⌜r.Open s⌝⦄ g.element
    ⦃⇓? node s => ⌜r.Open s ∧ Stands r.source node ∧ ∀ start stop, node.Fits r.source start stop⌝⦄

attribute [spec] Fair.assignment Fair.unary Fair.power Fair.operand Fair.callee Fair.primary Fair.statement
  Fair.item Fair.pattern Fair.element

end ClassMigration.Script
