import ClassMigration.Text.CodePoint

/-! Text as a list of code points. Every offset of the library counts them from zero, and a slice that reaches
past the end is cut there. -/
namespace ClassMigration

namespace Text

/-- The characters from `start` up to, not including, `stop`. -/
def slice (text : Text) (start stop : Nat) : Text := (text.take stop).drop start

@[simp] theorem slice_nil (start stop : Nat) : slice [] start stop = [] := by simp [slice]
@[simp] theorem slice_self (text : Text) (offset : Nat) : slice text offset offset = [] := by
  simp [slice]

theorem length_slice (text : Text) (start stop : Nat) :
    (slice text start stop).length = min stop text.length - start := by simp [slice]

theorem slice_eq_iff {s w : Text} {k : Nat} : slice s k (k + w.length) = w ↔ w <+: s.drop k := by
  rw [slice, List.drop_take, Nat.add_sub_cancel_left, List.prefix_iff_eq_take, eq_comm]

theorem slice_append_drop {i j : Nat} (order : i ≤ j) (s : Text) : slice s i j ++ s.drop j = s.drop i := by
  have whole : s.drop i = (s.take j ++ s.drop j).drop i := by rw [List.take_append_drop]
  rw [whole]
  by_cases inside : i ≤ (s.take j).length
  · rw [List.drop_append_of_le_length inside]
    rfl
  · have short : s.length ≤ j := by
      rw [List.length_take] at inside
      omega
    simp [slice, List.drop_of_length_le, short]

theorem slice_append {i j k : Nat} (order : i ≤ j) (more : j ≤ k) (s : Text) :
    slice s i j ++ slice s j k = slice s i k := by
  have taken : (s.take k).take j = s.take j := by rw [List.take_take, Nat.min_eq_left more]
  have whole := slice_append_drop order (s.take k)
  rw [slice, taken] at whole
  exact whole

def endsWith (text ending : Text) : Bool := ending.isSuffixOf text

theorem endsWith_iff {text ending : Text} : endsWith text ending = true ↔ ending <:+ text := by
  simp [endsWith]

def startsWith (text opening : Text) : Bool := opening.isPrefixOf text

theorem startsWith_iff {text opening : Text} :
    startsWith text opening = true ↔ opening <+: text := by
  simp [startsWith]

def find? (text part : Text) : Option Nat :=
  if startsWith text part then some 0 else
    match text with
    | [] => none
    | _ :: rest => (find? rest part).map (· + 1)

/-- Replaces each character that a part covers, `skip` counting those of a part already replaced. -/
def replaceFrom (part new : Text) : Nat → Text → Text
  | _, [] => []
  | skip + 1, _ :: rest => replaceFrom part new skip rest
  | 0, c :: rest =>
    if startsWith (c :: rest) part then new ++ replaceFrom part new (part.length - 1) rest
    else c :: replaceFrom part new 0 rest

/-- Every occurrence of `part`, from the left and without overlap, becomes `new`; an empty part
occurs before each character and at the end. -/
def replace (text part new : Text) : Text :=
  if part.isEmpty then text.flatMap (fun c => new ++ [c]) ++ new
  else replaceFrom part new 0 text

theorem replace_singleton (c : CodePoint) (new text : Text) :
    text.replace [c] new = text.flatMap fun d => if d = c then new else [d] := by
  change replaceFrom [c] new 0 text = _
  induction text with
  | nil => rfl
  | cons d rest ih =>
    have starts : startsWith (d :: rest) [c] = true ↔ c = d := by simp [startsWith, List.isPrefixOf]
    rw [replaceFrom, List.flatMap_cons, ← ih]
    by_cases same : d = c
    · rw [if_pos (starts.mpr same.symm), if_pos same]
      rfl
    · rw [if_neg (mt starts.mp (Ne.symm same)), if_neg same]
      rfl

theorem replace_char (c d : CodePoint) (text : Text) :
    text.replace [c] [d] = text.map fun e => if e = c then d else e := by
  rw [replace_singleton]
  induction text with
  | nil => rfl
  | cons e rest ih =>
    rw [List.flatMap_cons, List.map_cons, ih]
    split <;> rfl

/-- The pieces between the separators, one more than there are separators. -/
def pieces (separator : CodePoint) : Text → List Text
  | [] => [[]]
  | c :: rest =>
    if c = separator then [] :: pieces separator rest
    else match pieces separator rest with
      | [] => [[c]]
      | piece :: more => (c :: piece) :: more

/-- The pieces written one after the other with `separator` between them. -/
def joined (separator : Text) : List Text → Text
  | [] => []
  | [piece] => piece
  | piece :: more => piece ++ separator ++ joined separator more

/-- Order by code point, the shorter of two texts first when it opens the longer. -/
def precedes : Text → Text → Bool
  | [], _ => true
  | _ :: _, [] => false
  | a :: s, b :: t => a.toNat < b.toNat || (a == b && precedes s t)

def insertSorted (text : Text) : List Text → List Text
  | [] => [text]
  | other :: more =>
    if precedes text other then text :: other :: more else other :: insertSorted text more

def sorted : List Text → List Text
  | [] => []
  | text :: more => insertSorted text (sorted more)

/-- Upper-case ASCII letters become lower case. -/
def lowered (text : Text) : Text := text.map CodePoint.toLower

end Text

end ClassMigration
