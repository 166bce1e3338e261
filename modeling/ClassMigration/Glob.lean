import ClassMigration.FileTree.Path

/-! Name patterns: `?` stands for one character, `*` for any number of them, and brackets for one character
of a set. All other characters, the backslash among them, stand for themselves. -/
namespace ClassMigration.Glob

/-- The characters within some ranges, or all others. -/
structure CharSet where
  negated : Bool
  ranges : List (CodePoint × CodePoint)
  deriving DecidableEq, Repr

namespace CharSet

def contains (set : CharSet) (c : CodePoint) : Bool :=
  (set.ranges.any fun range => range.1 ≤ c && c ≤ range.2) != set.negated

/-- A member between brackets, or a hyphen between the ends of a range. -/
inductive Member where
  | char (c : CodePoint)
  | hyphen
  deriving DecidableEq, Repr

/-- The members of a set; the next `plain` characters and the last one are no hyphens of ranges. -/
def members : Nat → Text → List Member
  | _, [] => []
  | _, [c] => [.char c]
  | plain + 1, c :: rest => .char c :: members plain rest
  | 0, c :: rest => if c = '-' then .hyphen :: members 2 rest else .char c :: members 0 rest

def withoutEmptyRanges : List Member → List Member
  | .char a :: .hyphen :: .char b :: rest =>
    if b < a then withoutEmptyRanges rest
    else .char a :: .hyphen :: .char b :: withoutEmptyRanges rest
  | member :: rest => member :: withoutEmptyRanges rest
  | [] => []

def rangesOf : List Member → List (CodePoint × CodePoint)
  | .char a :: .hyphen :: .char b :: rest => (a, b) :: rangesOf rest
  | .char c :: rest => (c, c) :: rangesOf rest
  | .hyphen :: rest => ('-', '-') :: rangesOf rest
  | [] => []

/-- The set that is written between brackets. An exclamation mark that comes first, once empty ranges are
gone, negates it. -/
def ofWritten (written : Text) : CharSet :=
  match withoutEmptyRanges (members (if written.startsWith [.char '!'] then 2 else 1) written) with
  | .char '!' :: rest => ⟨true, rangesOf rest⟩
  | members => ⟨false, rangesOf members⟩

end CharSet

inductive Piece where
  | char (c : CodePoint)
  /-- One character. -/
  | any
  /-- Any number of characters. -/
  | many
  | oneOf (set : CharSet)
  deriving DecidableEq, Repr

/-- What stands between an opening bracket and the one that closes it. A closing bracket that comes first
is a member. -/
def written? (rest : Text) : Option Text :=
  let upTo (opening rest : Text) : Option Text :=
    if rest.contains (.char ']') then some (opening ++ rest.takeWhile (· != .char ']')) else none
  match rest with
  | '!' :: ']' :: more => upTo [.char '!', .char ']'] more
  | '!' :: more => upTo [.char '!'] more
  | ']' :: more => upTo [.char ']'] more
  | more => upTo [] more

/-- The pieces of a pattern; `skip` characters belong to a set already read. A bracket that nothing closes
stands for itself. -/
def piecesFrom : Nat → Text → List Piece
  | _, [] => []
  | skip + 1, _ :: rest => piecesFrom skip rest
  | 0, c :: rest =>
    if c = '*' then .many :: piecesFrom 0 rest
    else if c = '?' then .any :: piecesFrom 0 rest
    else if c = '[' then
      match written? rest with
      | some written => .oneOf (.ofWritten written) :: piecesFrom (written.length + 1) rest
      | none => .char '[' :: piecesFrom 0 rest
    else .char c :: piecesFrom 0 rest

def anyEnd (test : Text → Bool) : Text → Bool
  | [] => test []
  | c :: rest => test (c :: rest) || anyEnd test rest

def matchesPieces : List Piece → Text → Bool
  | [], text => text.isEmpty
  | .many :: more, text => anyEnd (matchesPieces more) text
  | .char c :: more, text => match text with
    | d :: rest => c == d && matchesPieces more rest
    | [] => false
  | .any :: more, text => match text with
    | _ :: rest => matchesPieces more rest
    | [] => false
  | .oneOf set :: more, text => match text with
    | c :: rest => set.contains c && matchesPieces more rest
    | [] => false

/-- The whole name matches. A hidden name matches only a pattern that itself begins with a dot. -/
def matchesName (pattern name : Text) : Bool :=
  (Path.isHidden pattern || !Path.isHidden name) && matchesPieces (piecesFrom 0 pattern) name

def isPattern (text : Text) : Bool := text.any fun c => c == '*' || c == '?' || c == '['

end ClassMigration.Glob
