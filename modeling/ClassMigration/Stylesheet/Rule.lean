import ClassMigration.Failure
import ClassMigration.Stylesheet.Selector
import ClassMigration.Text.Blank

/-! Rules of a stylesheet: style rules with the rules nested in them, at-rules, and what cannot be read as
either. A style rule's content matters only where it holds a block. -/
namespace ClassMigration.Stylesheet

inductive Item where
  /-- A style rule by its place, the values before its block and the items in it. -/
  | rule (place : Position) (prelude : List Value) (nested : List Item)
  /-- An at-rule by its lower-case keyword, with the items in it if it is one that holds rules. -/
  | atRule (keyword : Text) (nested : Option (List Item))
  | fault (found : RuleFault)
  deriving Repr

def groupingKeywords : List Text :=
  ["media", "supports", "document", "layer", "container", "scope"].map String.codePoints

/-- A rule as it is cut out of a list of values. -/
inductive Cut where
  | rule (place : Position) (prelude content : List Value)
  | atRule (keyword : Text) (content : Option (List Value))
  | fault (found : RuleFault)

namespace Cut

/-- A rule whose block does not come before the end, or before a semicolon. -/
def missingBlock (stop : String) (place : Position) : Cut :=
  .fault ⟨stop.codePoints ++ " reached before \x7b\x7d block for a qualified rule.".codePoints,
    place.line, place.column⟩

/-- What a list of values is cut into. -/
inductive Level where
  /-- A whole stylesheet, between whose rules the marks of a markup comment may stand. -/
  | sheet
  /-- Rules alone. -/
  | rules
  /-- Declarations and rules, as in the block of a style rule. -/
  | block
  deriving DecidableEq

/-- A rule that has begun; its values so far are in reverse. -/
inductive Begun where
  | nothing
  | qualified (place : Position) (values : List Value)
  | atRule (keyword : Text)

def isComment (value : Value) : Bool := value.isMark "<!--" || value.isMark "-->"

/-- The state of reading a declaration's value. -/
inductive Tail where
  | value
  | bang
  | important
  deriving DecidableEq

/-- No block in braces stands beside other content. `filled` tells whether content came before. -/
def blockAlone : Tail → Bool → List Value → Bool
  | _, _, [] => true
  | tail, filled, v :: more =>
    if tail = .value && v.isMark "!" then blockAlone .bang filled more
    else if tail = .bang && v.ident?.map Text.lowered == some "important".codePoints then
      blockAlone .important filled more
    else if v.isGap then blockAlone tail filled more
    else if v.curly?.isSome && filled then false
    else blockAlone .value true more

def isDeclaration : List Value → Bool
  | [] => false
  | name :: more =>
    name.ident?.isSome && match more.dropWhile Value.isGap with
      | [] => false
      | colon :: value => colon.isMark ":" && blockAlone .value false value

/-- Ends a rule at a semicolon: inside a block it may have been a declaration. -/
def atSemicolon (values : List Value) (semicolon : Value) : List Cut :=
  if isDeclaration values.reverse then [] else [missingBlock "Stop token" semicolon.place]

def atEnd (level : Level) : List Value → List Cut
  | [] => []
  | last :: before =>
    if level = .block && isDeclaration (last :: before).reverse then []
    else [missingBlock "EOF" last.place]

def atBlock (level : Level) (place : Position) (values : List Value) (block : Value)
    (content : List Value) : List Cut :=
  if level = .block && isDeclaration (values.reverse ++ [block]) then []
  else [.rule place values.reverse content]

/-- Cuts values into rules; declarations are left out. -/
def all (level : Level) : Begun → List Value → List Cut
  | .nothing, [] => []
  | .qualified _ values, [] => atEnd level values
  | .atRule keyword, [] => [.atRule keyword none]
  | .nothing, v :: more =>
    if v.isGap || (level = .sheet && isComment v) || (level = .block && v.isMark ";") then
      all level .nothing more
    else match v with
      | .token _ (.atKeyword name) => all level (.atRule (Text.lowered name)) more
      | .block place .curly content => .rule place [] content :: all level .nothing more
      | _ => all level (.qualified v.place [v]) more
  | .qualified place values, v :: more =>
    if level = .block && v.isMark ";" then atSemicolon values v ++ all level .nothing more
    else match v.curly? with
      | some content => atBlock level place values v content ++ all level .nothing more
      | none => all level (.qualified place (v :: values)) more
  | .atRule keyword, v :: more =>
    if v.isMark ";" then .atRule keyword none :: all level .nothing more
    else match v.curly? with
      | some content => .atRule keyword (some content) :: all level .nothing more
      | none => all level (.atRule keyword) more

end Cut

namespace Item

/-- The items of a list of values, with blocks inside one another up to a depth. -/
def ofValues : Nat → Cut.Level → List Value → List Item
  | 0, _, _ => []
  | depth + 1, level, values =>
    (Cut.all level .nothing values).map fun
      | .rule place prelude content =>
        .rule place prelude
          (if content.any (·.curly?.isSome) then ofValues depth .block content else [])
      | .atRule keyword content =>
        .atRule keyword (if groupingKeywords.contains keyword then
          content.map (ofValues depth .rules) else none)
      | .fault found => .fault found

end Item

/-- A style rule: its selector as text and in parts, its place, and the at-rules around it. -/
structure StyleRule where
  selector : Text
  parts : List Part
  place : Position
  atRules : List Text
  deriving Repr

structure Sheet where
  source : Text
  rules : List StyleRule
  deriving Repr

namespace Item

mutual

/-- The style rules of an item, each before those nested in it; style rules around a rule are not told.
The first fault ends the reading. -/
def rules (index : LineIndex) (atRules : List Text) : Item → Except RuleFault (List StyleRule)
  | rule place prelude nested => do
    let inner ← rulesOf index atRules nested
    return ⟨(serialized prelude).trimmed, Part.ofValues index prelude, place, atRules⟩ :: inner
  | atRule keyword (some nested) => rulesOf index (atRules ++ [keyword]) nested
  | atRule _ none => .ok []
  | fault found => .error found

def rulesOf (index : LineIndex) (atRules : List Text) :
    List Item → Except RuleFault (List StyleRule)
  | [] => .ok []
  | item :: more => do
    let first ← rules index atRules item
    let rest ← rulesOf index atRules more
    return first ++ rest

end

end Item

namespace Sheet

/-- The items of a source text. No blocks nest deeper than the text is long. -/
def items (source : Text) : List Item :=
  Item.ofValues (source.length + 1) .sheet (valuesOf source)

def read (source : Text) : Except RuleFault Sheet :=
  (Item.rulesOf (LineIndex.ofSource source) [] (items source)).map (⟨source, ·⟩)

end Sheet

end ClassMigration.Stylesheet
