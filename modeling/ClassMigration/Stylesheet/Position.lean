import ClassMigration.Text

/-! Lines and columns of a stylesheet. They count in the normalized text, in which every line ends with
one line feed; the line starts of the source lead from there back to offsets in the source. -/
namespace ClassMigration.Stylesheet

/-- Every line end becomes a line feed, and the null character the replacement character. -/
def normalized : Text → Text
  | [] => []
  | '\r' :: '\n' :: rest => '\n' :: normalized rest
  | c :: rest =>
    (if c == '\r' || c == '\x0c' then '\n' else if c == '\x00' then '\uFFFD' else c) ::
      normalized rest

/-- A line and a column, both from one. -/
structure Position where
  line : Nat
  column : Nat
  deriving DecidableEq, Repr

namespace Position

def first : Position := ⟨1, 1⟩

def step (p : Position) (c : CodePoint) : Position :=
  if c == '\n' then ⟨p.line + 1, 1⟩ else ⟨p.line, p.column + 1⟩

def after (p : Position) (passed : Text) : Position := passed.foldl step p

@[simp] theorem after_nil (p : Position) : p.after [] = p := rfl

@[simp] theorem after_cons (p : Position) (c : CodePoint) (rest : Text) :
    p.after (c :: rest) = (p.step c).after rest := rfl

theorem after_append (p : Position) (s t : Text) : p.after (s ++ t) = (p.after s).after t := by
  simp [after]

end Position

/-- The offsets after each line end of the source, counted from `offset`. -/
def lineEnds : Nat → Text → List Nat
  | _, [] => []
  | offset, '\r' :: '\n' :: rest => (offset + 2) :: lineEnds (offset + 2) rest
  | offset, c :: rest =>
    if c == '\r' || c == '\n' || c == '\x0c' then (offset + 1) :: lineEnds (offset + 1) rest
    else lineEnds (offset + 1) rest

/-- Where the lines of a source begin. -/
structure LineIndex where
  starts : List Nat
  deriving DecidableEq, Repr

namespace LineIndex

def ofSource (source : Text) : LineIndex := ⟨0 :: lineEnds 0 source⟩

/-- The offset of a position in the source; none beyond its last line. -/
def offset? (index : LineIndex) (p : Position) : Option Nat :=
  (index.starts[p.line - 1]?).map (· + (p.column - 1))

/-- The offset of a position that a token of the source has. -/
def offset (index : LineIndex) (p : Position) : Nat := (index.offset? p).getD 0

end LineIndex

end ClassMigration.Stylesheet
