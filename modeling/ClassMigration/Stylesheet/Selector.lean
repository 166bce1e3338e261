import ClassMigration.Span
import ClassMigration.Stylesheet.Serialize

/-! Selectors by their parts. Each part spans the source from its first value on, as many characters as its
values take when they are written anew. -/
namespace ClassMigration.Stylesheet

inductive Part where
  | typeName (name : Text) (span : Span)
  /-- `.name`, with the dot. -/
  | className (name : Text) (span : Span)
  | idName (name : Text) (span : Span)
  /-- `:name`, `::name` or `:name(…)`, with the parts of its arguments. -/
  | pseudo (name : Text) (span : Span) (arguments : List Part)
  | attributeTest (span : Span)
  | nesting (span : Span)
  /-- White space, `>`, `+` or `~`. -/
  | combinator (sign : CodePoint) (span : Span)
  | separator (span : Span)
  | other (span : Span)
  deriving Repr

namespace Part

def span : Part → Span
  | typeName _ span => span
  | className _ span => span
  | idName _ span => span
  | pseudo _ span _ => span
  | attributeTest span => span
  | nesting span => span
  | combinator _ span => span
  | separator span => span
  | other span => span

def spanOf (index : LineIndex) (value : Value) : Span :=
  let start := index.offset value.place
  ⟨start, start + value.serialized.length⟩

def single (index : LineIndex) (value : Value) : Part :=
  let start := index.offset value.place
  let span := spanOf index value
  match value with
  | .token _ (.whitespace text) => combinator ' ' ⟨start, start + text.length⟩
  | .token _ (.ident name) => typeName name span
  | .token _ (.hash name _) => idName name span
  | .token _ (.mark ['&']) => nesting ⟨start, start + 1⟩
  | .token _ (.mark ['*']) => typeName [.char '*'] ⟨start, start + 1⟩
  | .token _ (.mark [',']) => separator ⟨start, start + 1⟩
  | .token _ (.mark ['>']) => combinator '>' ⟨start, start + 1⟩
  | .token _ (.mark ['+']) => combinator '+' ⟨start, start + 1⟩
  | .token _ (.mark ['~']) => combinator '~' ⟨start, start + 1⟩
  | .block _ .square _ => attributeTest span
  | _ => other span

/-- The class that an identifier makes directly after a dot. -/
def class? (index : LineIndex) (dot following : Value) : Option Part :=
  let start := index.offset dot.place
  match following.ident? with
  | some name =>
    if index.offset following.place = start + 1 then
      some (className name ⟨start, start + 1 + following.serialized.length⟩)
    else none
  | none => none

mutual

/-- The parts of a selector. A colon that opens nothing is a part of its own. -/
def ofValues (index : LineIndex) : List Value → List Part
  | [] => []
  | [value] => [single index value]
  | first :: second :: more =>
    if first.isMark "." then
      match class? index first second with
      | some part => part :: ofValues index more
      | none => single index first :: ofValues index (second :: more)
    else if first.isMark ":" then
      if second.isMark ":" then
        match more with
        | third :: rest =>
          match pseudo? index (index.offset first.place) third with
          | some part => part :: ofValues index rest
          | none => single index first :: ofValues index (second :: third :: rest)
        | [] => [single index first, single index second]
      else
        match pseudo? index (index.offset first.place) second with
        | some part => part :: ofValues index more
        | none => single index first :: ofValues index (second :: more)
    else single index first :: ofValues index (second :: more)

def pseudo? (index : LineIndex) (start : Nat) : Value → Option Part
  | .token place (.ident name) =>
    some (pseudo name ⟨start, (spanOf index (.token place (.ident name))).stop⟩ [])
  | .function place name arguments =>
    some (pseudo name ⟨start, (spanOf index (.function place name arguments)).stop⟩
      (ofValues index arguments))
  | _ => none

end

end Part

structure ClassPart where
  name : Text
  span : Span
  deriving DecidableEq, Repr

namespace Part

mutual

/-- The classes of a part: itself, or those in its arguments. -/
def classes : Part → List ClassPart
  | className name span => [⟨name, span⟩]
  | pseudo _ _ arguments => classesOf arguments
  | _ => []

def classesOf : List Part → List ClassPart
  | [] => []
  | part :: more => classes part ++ classesOf more

end

end Part

end ClassMigration.Stylesheet
