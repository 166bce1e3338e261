import ClassMigration.Proofs.Stylesheet.SimilarRules

/-! Names after dots. Only some of those in a list of values are classes of a selector: the parts of a
selector leave out what stands in blocks and in functions that no colon comes before. -/
namespace ClassMigration.Stylesheet

/-- A name directly after a dot, with the places of both. -/
structure Mention where
  dot : Position
  place : Position
  name : Text

namespace Mention

def part (index : LineIndex) (m : Mention) : ClassPart :=
  ⟨m.name, ⟨index.offset m.dot, index.offset m.dot + 1 + (Serialize.ident m.name).length⟩⟩

def joined (index : LineIndex) (m : Mention) : Bool :=
  index.offset m.place == index.offset m.dot + 1

end Mention

namespace Value

def dot? : Value → Option Position
  | token p (.mark ['.']) => some p
  | _ => none

mutual

/-- The names after dots in a value; `dot` is where a dot stands before it. -/
def mentions (dot : Option Position) : Value → List Mention
  | token p (.ident name) => (dot.map (⟨·, p, name⟩)).toList
  | token _ _ => []
  | function _ _ arguments => mentionsOf none arguments
  | block _ _ content => mentionsOf none content

def mentionsOf (dot : Option Position) : List Value → List Mention
  | [] => []
  | v :: more => mentions dot v ++ mentionsOf (dot? v) more

end

/-- What stands before a value of a selector, as far as it matters. -/
inductive Seen where
  | other
  | dot (place : Position)
  | colon

def seen : Value → Seen
  | token p (.mark ['.']) => .dot p
  | token _ (.mark [':']) => .colon
  | _ => .other

mutual

def selected (before : Seen) : Value → List Mention
  | token p (.ident name) => match before with
    | .dot d => [⟨d, p, name⟩]
    | _ => []
  | token _ _ => []
  | function _ _ arguments => match before with
    | .colon => selectedOf .other arguments
    | _ => []
  | block .. => []

def selectedOf (before : Seen) : List Value → List Mention
  | [] => []
  | v :: more => selected before v ++ selectedOf (seen v) more

end

theorem selected_other (v : Value) : selected .other v = [] := by
  cases v with
  | token p l => cases l <;> rfl
  | function => rfl
  | block => rfl

theorem ident_or (v : Value) :
    (∃ p name, v = .token p (.ident name)) ∨ (v.ident? = none ∧ ∀ d, selected (.dot d) v = []) := by
  cases v with
  | token p l => cases l <;> first | exact .inl ⟨p, _, rfl⟩ | exact .inr ⟨rfl, fun _ => rfl⟩
  | function => exact .inr ⟨rfl, fun _ => rfl⟩
  | block => exact .inr ⟨rfl, fun _ => rfl⟩

theorem eq_of_isMark {v : Value} {text : String} (mark : v.isMark text) :
    ∃ p, v = .token p (.mark text.codePoints) := by
  cases v with
  | token p l =>
    have same : l = .mark text.codePoints := by simpa [isMark, lexeme?] using mark
    exact ⟨p, by rw [same]⟩
  | function => simp [isMark, lexeme?] at mark
  | block => simp [isMark, lexeme?] at mark

theorem seen_other {v : Value} (dot : ¬v.isMark ".") (colon : ¬v.isMark ":") : seen v = .other := by
  unfold seen
  split
  · exact absurd rfl dot
  · exact absurd rfl colon
  · rfl

end Value

open Value (selectedOf mentionsOf)

def classParts (index : LineIndex) (mentions : List Mention) : List ClassPart :=
  (mentions.filter (Mention.joined index)).map (Mention.part index)

theorem classParts_append (index : LineIndex) (ms ns : List Mention) :
    classParts index (ms ++ ns) = classParts index ms ++ classParts index ns := by
  simp [classParts]

namespace Part

variable {index : LineIndex}

theorem classes_single (value : Value) : classes (single index value) = [] := by
  unfold single
  dsimp only
  split <;> rfl

theorem class?_ident (d p : Position) (name : Text) :
    class? index (.token d (.mark [.char '.'])) (.token p (.ident name)) =
      if index.offset p = index.offset d + 1 then
        some (className name (Mention.part index ⟨d, p, name⟩).span) else none := rfl

theorem class?_eq_some {d : Position} {following : Value} {part : Part}
    (found : class? index (.token d (.mark [.char '.'])) following = some part) :
    classes part = classParts index (Value.selected (.dot d) following) ∧
      Value.seen following = .other := by
  rcases Value.ident_or following with ⟨p, name, rfl⟩ | ⟨ident, -⟩
  · rw [class?_ident] at found
    by_cases adjacent : index.offset p = index.offset d + 1
    · rw [if_pos adjacent] at found
      cases found
      have joined : Mention.joined index ⟨d, p, name⟩ = true := beq_iff_eq.mpr adjacent
      refine ⟨?_, rfl⟩
      rw [classParts, Value.selected, List.filter_cons_of_pos joined]
      rfl
    · rw [if_neg adjacent] at found
      cases found
  · rw [class?, ident] at found
    cases found

theorem class?_eq_none {d : Position} {following : Value}
    (found : class? index (.token d (.mark [.char '.'])) following = none) :
    classParts index (Value.selected (.dot d) following) = [] := by
  rcases Value.ident_or following with ⟨p, name, rfl⟩ | ⟨-, none⟩
  · rw [class?_ident] at found
    by_cases adjacent : index.offset p = index.offset d + 1
    · rw [if_pos adjacent] at found
      cases found
    · have apart : ¬Mention.joined index ⟨d, p, name⟩ := fun joined => adjacent (beq_iff_eq.mp joined)
      rw [classParts, Value.selected, List.filter_cons_of_neg apart]
      rfl
  · rw [none]
    rfl

/-- What is true of a value that may follow colons. -/
def AfterColon (index : LineIndex) (start : Nat) (v : Value) : Prop :=
  match pseudo? index start v with
  | some part => classes part = classParts index (Value.selected .colon v) ∧ Value.seen v = .other
  | none => Value.selected .colon v = []

theorem AfterColon.some {start : Nat} {v : Value} {part : Part} (after : AfterColon index start v)
    (found : pseudo? index start v = some part) :
    classes part = classParts index (Value.selected .colon v) ∧ Value.seen v = .other := by
  simpa only [AfterColon, found] using after

theorem AfterColon.none {start : Nat} {v : Value} (after : AfterColon index start v)
    (found : pseudo? index start v = none) : Value.selected .colon v = [] := by
  simpa only [AfterColon, found] using after

/-- The classes of a selector are the selected names that begin right after their dots. -/
theorem classesOf_ofValues (vs : List Value) :
    classesOf (ofValues index vs) = classParts index (selectedOf .other vs) := by
  refine ofValues.induct index
    (fun vs => classesOf (ofValues index vs) = classParts index (selectedOf .other vs))
    (fun start v => AfterColon index start v) ?ident ?function ?value ?nil ?single ?dot ?dotAlone
    ?colons ?colonsAlone ?colonsEnd ?colon ?colonAlone ?other vs
  case ident => intro start place name; exact ⟨rfl, rfl⟩
  case function =>
    intro start place name arguments ih
    exact ⟨by rw [classes]; exact ih, rfl⟩
  case value =>
    intro v start ident function
    cases v with
    | token p l => cases l <;> first | rfl | exact absurd rfl (ident _ _)
    | function => exact absurd rfl (function _ _ _)
    | block => rfl
  case nil => rw [ofValues]; rfl
  case single =>
    intro value
    rw [ofValues, classesOf, classes_single, selectedOf, Value.selected_other]
    rfl
  case dot =>
    intro first second more isDot part found ih
    obtain ⟨p, rfl⟩ := Value.eq_of_isMark isDot
    obtain ⟨same, seen⟩ := class?_eq_some found
    change _ = classParts index (Value.selected (.dot p) second ++ selectedOf (Value.seen second) more)
    rw [ofValues.eq_def index (_ :: second :: more)]
    dsimp only
    rw [if_pos isDot, found, seen, classParts_append, ← same, ← ih]
    rfl
  case dotAlone =>
    intro first second more isDot found ih
    obtain ⟨p, rfl⟩ := Value.eq_of_isMark isDot
    change _ = classParts index (Value.selected (.dot p) second ++ selectedOf (Value.seen second) more)
    rw [selectedOf, Value.selected_other, List.nil_append] at ih
    rw [ofValues.eq_def index (_ :: second :: more)]
    dsimp only
    rw [if_pos isDot, found, classParts_append, class?_eq_none found, ← ih]
    exact congrArg (· ++ _) (classes_single _)
  case colons =>
    intro first second notDot isColon isColon' third rest part found after ih
    obtain ⟨same, seen⟩ := after.some found
    obtain ⟨p, rfl⟩ := Value.eq_of_isMark isColon
    obtain ⟨q, rfl⟩ := Value.eq_of_isMark isColon'
    change _ = classParts index (Value.selected .colon third ++ selectedOf (Value.seen third) rest)
    rw [ofValues.eq_def index (_ :: _ :: third :: rest)]
    dsimp only
    rw [if_neg notDot, if_pos isColon, if_pos isColon', found, seen, classParts_append, ← same, ← ih]
    rfl
  case colonsAlone =>
    intro first second notDot isColon isColon' third rest found _ ih
    obtain ⟨p, rfl⟩ := Value.eq_of_isMark isColon
    obtain ⟨q, rfl⟩ := Value.eq_of_isMark isColon'
    change _ = classParts index (selectedOf .other (.token q (.mark ":".codePoints) :: third :: rest))
    rw [ofValues.eq_def index (_ :: _ :: third :: rest)]
    dsimp only
    rw [if_neg notDot, if_pos isColon, if_pos isColon', found, ← ih]
    exact congrArg (· ++ _) (classes_single _)
  case colonsEnd =>
    intro first second notDot isColon isColon'
    obtain ⟨p, rfl⟩ := Value.eq_of_isMark isColon
    obtain ⟨q, rfl⟩ := Value.eq_of_isMark isColon'
    rw [ofValues.eq_def index [_, _]]
    dsimp only
    rw [if_neg notDot, if_pos isColon, if_pos isColon']
    rfl
  case colon =>
    intro first second more notDot isColon notColon part found after ih
    obtain ⟨same, seen⟩ := after.some found
    obtain ⟨p, rfl⟩ := Value.eq_of_isMark isColon
    change _ = classParts index (Value.selected .colon second ++ selectedOf (Value.seen second) more)
    rw [ofValues.eq_def index (_ :: second :: more)]
    dsimp only
    rw [if_neg notDot, if_pos isColon, if_neg notColon, found, seen, classParts_append,
      ← same, ← ih]
    rfl
  case colonAlone =>
    intro first second more notDot isColon notColon found after ih
    have none := after.none found
    obtain ⟨p, rfl⟩ := Value.eq_of_isMark isColon
    change _ = classParts index (Value.selected .colon second ++ selectedOf (Value.seen second) more)
    rw [selectedOf, Value.selected_other] at ih
    rw [ofValues.eq_def index (_ :: second :: more)]
    dsimp only
    rw [if_neg notDot, if_pos isColon, if_neg notColon, found, none, ← ih]
    exact congrArg (· ++ _) (classes_single _)
  case other =>
    intro first second more notDot notColon ih
    rw [selectedOf, Value.selected_other, Value.seen_other notDot notColon, List.nil_append, ← ih,
      ofValues.eq_def index (first :: second :: more)]
    dsimp only
    rw [if_neg notDot, if_neg notColon]
    exact congrArg (· ++ _) (classes_single _)

end Part

namespace Value

def Seen.dot? : Seen → Option Position
  | .dot p => some p
  | _ => none

theorem dot?_eq_seen (v : Value) : dot? v = (seen v).dot? := by
  unfold dot? seen
  split
  · rfl
  · split <;> simp_all [Seen.dot?]

mutual

theorem selected_sublist (before : Seen) : (v : Value) →
    (selected before v).Sublist (mentions before.dot? v)
  | token p l => by
    cases l with
    | ident name =>
      cases before with
      | dot d => exact .refl _
      | other => exact .refl _
      | colon => exact .refl _
    | _ => exact .refl _
  | function p name arguments => by
    cases before with
    | colon => exact selectedOf_sublist .other arguments
    | dot d => exact List.nil_sublist _
    | other => exact List.nil_sublist _
  | block p bracket content => List.nil_sublist _

theorem selectedOf_sublist (before : Seen) : (vs : List Value) →
    (selectedOf before vs).Sublist (mentionsOf before.dot? vs)
  | [] => .refl _
  | v :: more => by
    rw [selectedOf, mentionsOf, dot?_eq_seen]
    exact (selected_sublist before v).append (selectedOf_sublist (seen v) more)

end

/-- What stands before on both sides. -/
inductive SimilarSeen : Option (Position × Position) → Seen → Seen → Prop
  | other : SimilarSeen none .other .other
  | dot {d d'} : SimilarSeen (some (d, d')) (.dot d) (.dot d')
  | colon : SimilarSeen none .colon .colon

theorem similarSeen_token (l : Lexeme) (p p' : Position) :
    SimilarSeen (dotAt l p p') (seen (.token p l)) (seen (.token p' l)) := by
  by_cases isDot : l = .mark [.char '.']
  · subst isDot
    exact .dot
  · rw [dotAt_of_ne isDot]
    by_cases isColon : l = .mark [.char ':']
    · subst isColon
      exact .colon
    · have other : ∀ q, seen (.token q l) = .other := by
        intro q
        unfold seen
        split
        · rename_i same; cases same; exact absurd rfl isDot
        · rename_i same; cases same; exact absurd rfl isColon
        · rfl
      rw [other, other]
      exact .other

/-- A class on the right that came in, or that was kept from the left. -/
def Accounted (r : Respect) (left : List Mention) (m' : Mention) : Prop :=
  r.fresh m'.name ∨ ∃ m ∈ left, m.name = m'.name ∧ r.kept (m.dot, m'.dot) (m.place, m'.place) m.name

theorem Accounted.mono {r : Respect} {left left' : List Mention} {m' : Mention}
    (accounted : Accounted r left m') (more : ∀ m ∈ left, m ∈ left') : Accounted r left' m' := by
  rcases accounted with fresh | ⟨m, mem, same, kept⟩
  · exact .inl fresh
  · exact .inr ⟨m, more m mem, same, kept⟩

theorem selected_token {dot : Option (Position × Position)} {before before' : Seen}
    (seen : SimilarSeen dot before before') {l : Lexeme} (single : dot = none ∨ ∀ n, l ≠ .ident n)
    (p : Position) : selected before' (.token p l) = [] := by
  cases l with
  | ident name =>
    cases seen with
    | dot => rcases single with none | other
             · cases none
             · exact absurd rfl (other name)
    | other => rfl
    | colon => rfl
  | _ => rfl

/-- Every selected name of similar values came in or was selected before. -/
theorem accounted_of_similar {r : Respect} {dot : Option (Position × Position)} {vs vs' : List Value}
    (similar : Similar r dot vs vs') {before before' : Seen} (seen : SimilarSeen dot before before') :
    ∀ m' ∈ selectedOf before' vs', Accounted r (selectedOf before vs) m' := by
  induction similar generalizing before before' with
  | nil => intro m' mem; cases mem
  | @token dot p p' l more more' single rest ih =>
    intro m' mem
    rw [selectedOf, selected_token seen single, List.nil_append] at mem
    exact (ih (similarSeen_token l p p') m' mem).mono fun m mem => List.mem_append_right _ mem
  | @kept dot p p' name more more' stays rest ih =>
    cases seen
    intro m' mem
    rcases List.mem_append.mp mem with here | later
    · obtain rfl := List.mem_singleton.mp here
      exact .inr ⟨_, List.mem_append_left _ (List.mem_singleton.mpr rfl), rfl, stays⟩
    · exact (ih .other m' later).mono fun m mem => List.mem_append_right _ mem
  | @other dot p p' name new more more' fresh rest ih =>
    cases seen
    intro m' mem
    rcases List.mem_append.mp mem with here | later
    · obtain rfl := List.mem_singleton.mp here
      exact .inl fresh
    · exact (ih .other m' later).mono fun m mem => List.mem_append_right _ mem
  | @before d d' p' q' new values values' fresh rest ih =>
    cases seen
    intro m' mem
    rcases List.mem_append.mp mem with here | later
    · obtain rfl := List.mem_singleton.mp here
      exact .inl fresh
    · exact ih .dot m' later
  | @function dot p p' name inner inner' more more' inside rest ihInside ih =>
    intro m' mem
    rcases List.mem_append.mp mem with here | later
    · cases seen with
      | colon => exact (ihInside .other m' here).mono fun m mem => List.mem_append_left _ mem
      | other => cases here
      | dot => cases here
    · exact (ih .other m' later).mono fun m mem => List.mem_append_right _ mem
  | @block dot p p' bracket inner inner' more more' inside rest ihInside ih =>
    intro m' mem
    exact (ih .other m' mem).mono fun m mem => mem

end Value

end ClassMigration.Stylesheet
