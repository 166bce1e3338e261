/-! Code points. Texts that are read hold characters alone; an escape may also stand for a surrogate, which is
none and has no place in a file. -/
namespace ClassMigration

/-- A character, or a surrogate by its distance from the first. -/
inductive CodePoint where
  | char (c : Char)
  | surrogate (index : Fin 0x800)
  deriving DecidableEq, Repr

abbrev Text := List CodePoint

namespace CodePoint

instance : Coe Char CodePoint := ⟨char⟩

def toNat : CodePoint → Nat
  | char c => c.toNat
  | surrogate index => 0xD800 + index

theorem toNat_inj {a b : CodePoint} : a.toNat = b.toNat ↔ a = b := by
  have whole (c : Char) : c.toNat < 0xD800 ∨ 0xDFFF < c.toNat := by
    rcases c.valid with low | high
    · exact .inl low
    · exact .inr high.1
  refine ⟨fun same => ?_, congrArg toNat⟩
  cases a with
  | char c =>
    cases b with
    | char d => exact congrArg char (Char.toNat_inj.mp same)
    | surrogate index =>
      have := whole c
      simp only [toNat] at same
      omega
  | surrogate index =>
    cases b with
    | char d =>
      have := whole d
      simp only [toNat] at same
      omega
    | surrogate index' =>
      simp only [toNat] at same
      exact congrArg surrogate (Fin.ext (by omega))

@[simp] theorem toNat_char (c : Char) : (char c).toNat = c.toNat := rfl

/-- The code point of a number; one beyond the last becomes the first. -/
def ofNat (n : Nat) : CodePoint :=
  if within : 0xD800 ≤ n ∧ n - 0xD800 < 0x800 then surrogate ⟨n - 0xD800, within.2⟩
  else char (Char.ofNat n)

def isSurrogate : CodePoint → Bool
  | char _ => false
  | surrogate _ => true

/-- In the name of a file the surrogates from `U+DC80` to `U+DCFF` stand for single bytes that are no text. -/
def isByte : CodePoint → Bool
  | char _ => false
  | surrogate index => 0x480 ≤ index.val && index.val < 0x500

def char? : CodePoint → Option Char
  | char c => some c
  | surrogate _ => none

instance : LT CodePoint := ⟨fun a b => a.toNat < b.toNat⟩

instance (a b : CodePoint) : Decidable (a < b) := inferInstanceAs (Decidable (a.toNat < b.toNat))

instance : LE CodePoint := ⟨fun a b => a.toNat ≤ b.toNat⟩

instance (a b : CodePoint) : Decidable (a ≤ b) := inferInstanceAs (Decidable (a.toNat ≤ b.toNat))

/-- Whether a check of characters holds; no surrogate passes it. -/
def passes (check : Char → Bool) : CodePoint → Bool
  | char c => check c
  | surrogate _ => false

def isDigit (c : CodePoint) : Bool := c.passes Char.isDigit

def isAlpha (c : CodePoint) : Bool := c.passes Char.isAlpha

def isAlphanum (c : CodePoint) : Bool := c.passes Char.isAlphanum

@[simp] theorem isDigit_char (c : Char) : (char c).isDigit = c.isDigit := rfl

@[simp] theorem isAlpha_char (c : Char) : (char c).isAlpha = c.isAlpha := rfl

theorem isAlphanum_eq (c : CodePoint) : c.isAlphanum = (c.isAlpha || c.isDigit) := by cases c <;> rfl

/-- Changes a character; surrogates stay. -/
def mapChar (change : Char → Char) : CodePoint → CodePoint
  | char c => char (change c)
  | surrogate index => surrogate index

def toLower (c : CodePoint) : CodePoint := c.mapChar Char.toLower

def toUpper (c : CodePoint) : CodePoint := c.mapChar Char.toUpper

theorem le_def {a b : CodePoint} : a ≤ b ↔ a.toNat ≤ b.toNat := Iff.rfl

end CodePoint

end ClassMigration

/-- The characters of a string. -/
@[simp] def String.codePoints (s : String) : ClassMigration.Text := s.toList.map ClassMigration.CodePoint.char
