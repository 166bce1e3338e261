import ClassMigration.Script.Pattern

/-! Regular expression literals. -/
namespace ClassMigration.Script.RegExp

/-- The length of a pattern up to its closing slash, which does not count inside a class. -/
def patternLength? : Bool → Text → Option Nat
  | _, [] => none
  | _, ['\\'] => none
  | inClass, '\\' :: c :: rest =>
    if endsLine c then none else (patternLength? inClass rest).map (· + 2)
  | inClass, c :: rest =>
    if endsLine c then none
    else if inClass then (patternLength? (c != ']') rest).map (· + 1)
    else if c == '/' then some 0
    else (patternLength? (c == '[') rest).map (· + 1)

/-- The place after the literal at the cursor. Any letters may follow as flags, but no escapes. -/
def read (c : Cursor) : Except Fault Cursor :=
  let inner := c.skip 1
  match patternLength? false inner.rest with
  | none => .error (.at c.line .unterminatedRegExp)
  | some length =>
    let afterPattern := inner.skip (length + 1)
    let flags := afterPattern.rest.takeWhile continuesName
    let escapes := flags.dropLast.contains '\\' ||
      (flags.getLast? == some (.char '\\') && flags.length < afterPattern.rest.length)
    if escapes then .error afterPattern.illegal
    else if Pattern.isValid (inner.rest.take length) then .ok (afterPattern.skip flags.length)
    else .error (.at c.line .invalidRegExp)

end ClassMigration.Script.RegExp
