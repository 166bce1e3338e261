import ClassMigration.Script.Cursor

/-! Well-formed regular expressions. An escaped letter has to be a known escape, a quantifier needs
something to repeat that is no quantifier or assertion, a reference needs a closed group, and a
look-behind matches texts of one length only. -/
namespace ClassMigration.Script.Pattern

/-- The pattern's units: single characters and escaped ones. -/
inductive Piece where
  | plain (c : CodePoint)
  | escaped (c : CodePoint)
  deriving DecidableEq, Repr

def pieces? : Text → Option (List Piece)
  | [] => some []
  | ['\\'] => none
  | '\\' :: c :: rest => (pieces? rest).map (.escaped c :: ·)
  | c :: rest => (pieces? rest).map (.plain c :: ·)

/-- Code point escapes become characters, those beyond 16 bits one substitute for all. A value that is
no code point is refused. -/
def substituted : Nat → Text → Option Text
  | 0, _ => none
  | _ + 1, [] => some []
  | fuel + 1, c :: rest =>
    let plain := (substituted fuel rest).map (c :: ·)
    let coded (code length : Nat) : Option Text :=
      if code > 0x10FFFF then none
      else (substituted fuel (rest.drop length)).map
        ((if code ≤ 0xFFFF then CodePoint.ofNat code else '\uffff') :: ·)
    match c, rest with
    | '\\', 'u' :: '\x7b' :: more =>
      let digits := more.takeWhile Text.isHexDigit
      if !digits.isEmpty && more[digits.length]? == some (.char '\x7d') then
        coded (Text.valueIn 16 digits) (digits.length + 3)
      else plain
    | '\\', 'u' :: more =>
      match hexDigits? 4 0 more with
      | some code => coded code 5
      | none => plain
    | _, _ => plain

structure Width where
  least : Nat
  greatest : Nat
  deriving DecidableEq, Repr

namespace Width

def nothing : Width := ⟨0, 0⟩
def one : Width := ⟨1, 1⟩
def unbounded : Nat := 0x10000000000000000

def add (a b : Width) : Width := ⟨a.least + b.least, a.greatest + b.greatest⟩
def either (a b : Width) : Width := ⟨min a.least b.least, max a.greatest b.greatest⟩
def clamp (a : Width) : Width := ⟨min a.least unbounded, min a.greatest unbounded⟩

/-- The width of a repetition, without an upper bound where `most` is none. -/
def times (a : Width) (fewest : Nat) (most : Option Nat) : Width :=
  ⟨a.least * fewest, match most with
    | some count => a.greatest * count
    | none => if a.greatest == 0 then 0 else unbounded⟩

end Width

/-- What the last item of a sequence is, as far as a quantifier after it cares. -/
inductive Item where
  | anchor
  | repeated
  | other
  deriving DecidableEq, Repr

/-- Groups by number, open ones without a width, named ones and, inside a look-behind, the number of
groups before it. -/
structure Groups where
  widths : List (Option Width)
  names : List (Text × Nat)
  behind : Option Nat

namespace Groups

def none : Groups := ⟨[Option.none], [], Option.none⟩

def width? (groups : Groups) (number : Nat) : Option Width := do
  let width ← (← groups.widths[number]?)
  match groups.behind with
  | some limit => if number < limit then some width else Option.none
  | Option.none => some width

end Groups

/-- A part of a sequence: the width before its last item, and that item. -/
structure Part where
  before : Width
  last : Option (Item × Width)

namespace Part

def empty : Part := ⟨.nothing, none⟩

def width (part : Part) : Width :=
  match part.last with
  | some (_, width) => part.before.add width
  | none => part.before

def push (part : Part) (item : Item) (width : Width) : Part := ⟨part.width, some (item, width)⟩

end Part

def isAsciiLetter (c : CodePoint) : Bool := c.isAlpha
def isOctal (c : CodePoint) : Bool := '0' ≤ c && c ≤ '7'

/-- The longest run of at most `count` plain pieces with a property. -/
def runOf (allowed : CodePoint → Bool) : Nat → List Piece → Text
  | count + 1, .plain c :: rest => if allowed c then c :: runOf allowed count rest else []
  | _, _ => []

/-- A character of a class: its code, or none for a set such as the digits. -/
abbrev Member := Option Nat

/-- The escape `\c` in a character class, with the pieces after it. -/
def classEscape (c : CodePoint) (rest : List Piece) : Option (Member × List Piece) :=
  let coded (length : Nat) : Option (Member × List Piece) :=
    let digits := runOf Text.isHexDigit length rest
    if digits.length == length then some (some (Text.valueIn 16 digits), rest.drop length) else none
  if "dDsSwW".codePoints.contains c then some (none, rest)
  else match c with
    | 'a' => some (some 7, rest)
    | 'b' => some (some 8, rest)
    | 'f' => some (some 12, rest)
    | 'n' => some (some 10, rest)
    | 'r' => some (some 13, rest)
    | 't' => some (some 9, rest)
    | 'v' => some (some 11, rest)
    | 'x' => coded 2
    | 'u' => coded 4
    | 'U' => do
      let (member, more) ← coded 8
      if member.getD 0 ≤ 0x10FFFF then some (member, more) else none
    | _ =>
      if isOctal c then
        let digits := runOf isOctal 2 rest
        let code := Text.valueIn 8 (c :: digits)
        if code > 0o377 then none else some (some code, rest.drop digits.length)
      else if c.isDigit || isAsciiLetter c then none
      else some (some c.toNat, rest)

def member : List Piece → Option (Member × List Piece)
  | [] => none
  | .escaped c :: rest => classEscape c rest
  | .plain c :: rest => some (some c.toNat, rest)

/-- The pieces after a character class. The first member may be a closing bracket. -/
def afterClass : Nat → Bool → List Piece → Option (List Piece)
  | 0, _, _ => none
  | fuel + 1, first, pieces =>
    if !first && pieces.head? == some (.plain ']') then some (pieces.drop 1)
    else do
      let (low, rest) ← member pieces
      match rest with
      | .plain '-' :: .plain ']' :: more => some more
      | .plain '-' :: more =>
        let (high, more) ← member more
        if (← low) ≤ (← high) then afterClass fuel false more else none
      | _ => afterClass fuel false rest

/-- The escape `\c` outside a class: the item it makes, its width and the pieces after it. -/
def escape (groups : Groups) (c : CodePoint) (rest : List Piece) :
    Option (Item × Width × List Piece) :=
  let coded (length : Nat) : Option (Item × Width × List Piece) :=
    if (runOf Text.isHexDigit length rest).length == length then
      some (.other, .one, rest.drop length) else none
  if "AbBZ".codePoints.contains c then some (.anchor, .nothing, rest)
  else if "dDsSwWafnrtv".codePoints.contains c then some (.other, .one, rest)
  else match c with
    | 'x' => coded 2
    | 'u' => coded 4
    | 'U' =>
      if Text.valueIn 16 (runOf Text.isHexDigit 8 rest) ≤ 0x10FFFF then coded 8 else none
    | '0' => some (.other, .one, rest.drop (runOf isOctal 2 rest).length)
    | _ =>
      if c.isDigit then
        let second := runOf CodePoint.isDigit 1 rest
        let third := runOf isOctal 1 (rest.drop 1)
        if isOctal c && second.all isOctal && !second.isEmpty && !third.isEmpty then
          if Text.valueIn 8 (c :: second ++ third) > 0o377 then none
          else some (.other, .one, rest.drop 2)
        else do
          let width ← groups.width? (Text.valueIn 10 (c :: second))
          some (.other, width, rest.drop second.length)
      else if isAsciiLetter c then none
      else some (.other, .one, rest)

/-- The counts of a quantifier in braces, after its opening brace, with the pieces after it. Braces that
hold no counts are ordinary characters. -/
def counts? (rest : List Piece) : Option (Text × Text × List Piece) :=
  let low := runOf CodePoint.isDigit rest.length rest
  let afterLow := rest.drop low.length
  let (high, afterHigh) := match afterLow with
    | .plain ',' :: more =>
      let high := runOf CodePoint.isDigit more.length more
      (high, more.drop high.length)
    | _ => (low, afterLow)
  match afterHigh with
  | .plain '\x7d' :: more => some (low, high, more)
  | _ => none

def countLimit : Nat := 4294967295

/-- Repeats the last item of a sequence; a question mark or plus after the quantifier belongs to it. -/
def quantified (part : Part) (fewest : Nat) (most : Option Nat) (rest : List Piece) :
    Option (Part × List Piece) :=
  match part.last with
  | some (.other, width) =>
    let rest := match rest with
      | .plain '?' :: more => more
      | .plain '+' :: more => more
      | _ => rest
    some (⟨part.before, some (.repeated, width.times fewest most)⟩, rest)
  | _ => none

def groupName (closing : CodePoint) : List Piece → Option (Text × List Piece)
  | [] => none
  | .plain c :: rest =>
    if c == closing then some ([], rest)
    else (groupName closing rest).map fun (name, more) => (c :: name, more)
  | .escaped _ :: _ => none

def isGroupName : Text → Bool
  | [] => false
  | c :: rest => (c == '_' || Letter.isLetter c) &&
    rest.all fun d => Letter.isLetter d || Letter.isMark d

/-- Flags written inside a pattern: the letters, and what follows them. -/
def inlineFlags (rest : List Piece) : Text × List Piece :=
  let letters := runOf ("imsxatu".codePoints.contains ·) rest.length rest
  (letters, rest.drop letters.length)

mutual

def alternatives : Nat → Bool → Groups → List Piece → Option (Width × Groups × List Piece)
  | 0, _, _, _ => none
  | fuel + 1, outermost, groups, pieces => do
    let (part, groups, rest) ← sequence fuel outermost groups .empty pieces
    match rest with
    | .plain '|' :: more =>
      let (width, groups, rest) ← alternatives fuel false groups more
      some (part.width.clamp.either width, groups, rest)
    | _ => some (part.width.clamp, groups, rest)

/-- A sequence after its part already read. Flags for the whole pattern stand only at its start. -/
def sequence : Nat → Bool → Groups → Part → List Piece → Option (Part × Groups × List Piece)
  | 0, _, _, _, _ => none
  | fuel + 1, atStart, groups, part, pieces =>
    match pieces with
    | [] => some (part, groups, [])
    | .escaped c :: rest => do
      let (item, width, rest) ← escape groups c rest
      sequence fuel atStart groups (part.push item width) rest
    | .plain c :: rest =>
      match c with
      | '|' | ')' => some (part, groups, pieces)
      | '[' => do
        let inner := match rest with
          | .plain '^' :: more => more
          | _ => rest
        let rest ← afterClass (inner.length + 1) true inner
        sequence fuel atStart groups (part.push .other .one) rest
      | '?' => do
        let (part, rest) ← quantified part 0 (some 1) rest
        sequence fuel atStart groups part rest
      | '*' => do
        let (part, rest) ← quantified part 0 none rest
        sequence fuel atStart groups part rest
      | '+' => do
        let (part, rest) ← quantified part 1 none rest
        sequence fuel atStart groups part rest
      | '\x7b' =>
        if rest.head? == some (.plain '\x7d') then
          sequence fuel atStart groups (part.push .other .one) rest
        else match counts? rest with
          | none => sequence fuel atStart groups (part.push .other .one) rest
          | some (low, high, rest) => do
            let fewest := Text.valueIn 10 low
            let most := if high.isEmpty then none else some (Text.valueIn 10 high)
            if fewest ≥ countLimit || most.getD 0 ≥ countLimit then none
            else if (most.map fun count => decide (fewest ≤ count)).getD true then
              let (part, rest) ← quantified part fewest most rest
              sequence fuel atStart groups part rest
            else none
      | '^' | '$' => sequence fuel atStart groups (part.push .anchor .nothing) rest
      | '(' => do
        let (made, groups, rest) ← group fuel (atStart && part.last.isNone) groups rest
        match made with
        | some width => sequence fuel atStart groups (part.push .other width) rest
        | none => sequence fuel atStart groups part rest
      | _ => sequence fuel atStart groups (part.push .other .one) rest

/-- A group after its opening parenthesis; comments and flags for the whole pattern make no item. -/
def group : Nat → Bool → Groups → List Piece → Option (Option Width × Groups × List Piece)
  | 0, _, _, _ => none
  | fuel + 1, atStart, groups, pieces =>
    let closed (groups : Groups) (inner : List Piece) : Option (Width × Groups × List Piece) := do
      let (width, groups, rest) ← alternatives fuel false groups inner
      match rest with
      | .plain ')' :: more => some (width, groups, more)
      | _ => none
    let capturing (name : Option Text) (inner : List Piece) :
        Option (Option Width × Groups × List Piece) := do
      let number := groups.widths.length
      let names ← match name with
        | some name =>
          if (groups.names.find? (·.1 == name)).isSome then none
          else some ((name, number) :: groups.names)
        | none => some groups.names
      let (width, groups, rest) ←
        closed { groups with widths := groups.widths ++ [none], names := names } inner
      some (some width, { groups with widths := groups.widths.set number (some width) }, rest)
    let behind (inner : List Piece) : Option (Option Width × Groups × List Piece) := do
      let limit := groups.behind.getD groups.widths.length
      let (width, after, rest) ← closed { groups with behind := some limit } inner
      if width.least == width.greatest && width.least ≤ countLimit then
        some (some .nothing, { after with behind := groups.behind }, rest)
      else none
    let plainGroup (inner : List Piece) : Option (Option Width × Groups × List Piece) := do
      let (width, groups, rest) ← closed groups inner
      some (some width, groups, rest)
    match pieces with
    | .plain '?' :: .plain 'P' :: .plain '<' :: rest => do
      let (name, rest) ← groupName '>' rest
      if isGroupName name then capturing (some name) rest else none
    | .plain '?' :: .plain 'P' :: .plain '=' :: rest => do
      let (name, rest) ← groupName ')' rest
      let (_, number) ← groups.names.find? (·.1 == name)
      some (some (← groups.width? number), groups, rest)
    | .plain '?' :: .plain ':' :: rest => plainGroup rest
    | .plain '?' :: .plain '>' :: rest => plainGroup rest
    | .plain '?' :: .plain '#' :: rest =>
      match rest.dropWhile (· != .plain ')') with
      | _ :: more => some (none, groups, more)
      | [] => none
    | .plain '?' :: .plain '=' :: rest => do
      let (_, groups, rest) ← closed groups rest
      some (some .nothing, groups, rest)
    | .plain '?' :: .plain '!' :: rest => do
      let (_, groups, rest) ← closed groups rest
      some (some .nothing, groups, rest)
    | .plain '?' :: .plain '<' :: .plain '=' :: rest => behind rest
    | .plain '?' :: .plain '<' :: .plain '!' :: rest => behind rest
    | .plain '?' :: rest =>
      let (on, afterOn) := inlineFlags rest
      if on.contains 'a' && on.contains 'u' then none
      else match afterOn with
        | .plain ')' :: more => if !on.isEmpty && atStart then some (none, groups, more) else none
        | .plain ':' :: more => if on.isEmpty || on.contains 't' then none else plainGroup more
        | .plain '-' :: more =>
          let (off, afterOff) := inlineFlags more
          if on.contains 't' || off.isEmpty || off.any ("atu".codePoints.contains ·) ||
            off.any on.contains then none
          else match afterOff with
            | .plain ':' :: more => plainGroup more
            | _ => none
        | _ => none
    | _ => capturing none pieces

end

def isValid (pattern : Text) : Bool :=
  match (substituted (pattern.length + 1) pattern).bind pieces? with
  | none => false
  | some pieces =>
    match alternatives (4 * pieces.length + 8) true .none pieces with
    | some (_, _, []) => true
    | _ => false

end ClassMigration.Script.Pattern
