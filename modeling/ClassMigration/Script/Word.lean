import ClassMigration.Script.Cursor

/-! Words of a script: names, keywords and the literals spelled as words. -/
namespace ClassMigration.Script.Word

/-- The character of an escape in a name, at its backslash. An escape of four digits has to give a
character of the class `allowed`. -/
def escaped (allowed : CodePoint → Bool) (c : Cursor) : Except Fault (CodePoint × Cursor) :=
  match c.rest with
  | _ :: 'u' :: '\x7b' :: rest =>
    match bracedCode? rest with
    | some (code, count) => .ok (CodePoint.ofNat code, c.skip (3 + count))
    | none => .error c.illegal
  | _ :: 'u' :: rest =>
    match hexDigits? 4 0 rest with
    | some code =>
      let char := CodePoint.ofNat code
      if char != '\\' && allowed char then .ok (char, c.skip 6) else .error c.illegal
    | none => .error c.illegal
  | _ => .error c.illegal

/-- The characters that continue a name, escapes resolved. -/
def continued : Nat → Cursor → Except Fault (Text × Cursor)
  | 0, _ => .error .exhausted
  | fuel + 1, c =>
    match c.rest with
    | [] => .ok ([], c)
    | '\\' :: _ => do
      let (char, next) ← escaped continuesName c
      let (more, stop) ← continued fuel next
      return (char :: more, stop)
    | char :: _ =>
      if continuesName char then do
        let (more, stop) ← continued fuel (c.skip 1)
        return (char :: more, stop)
      else .ok ([], c)

/-- The word at the cursor. A keyword may not be written with escapes. -/
def read (fuel : Nat) (c : Cursor) : Except Fault (Lexeme × Cursor) := do
  let (first, next) ← match c.rest with
    | '\\' :: _ => escaped beginsName c
    | char :: _ => .ok (char, c.skip 1)
    | [] => .error c.illegal
  let (more, stop) ← continued fuel next
  let word := first :: more
  match Lexeme.ofWord word with
  | .identifier name => return (.identifier name, stop)
  | lexeme =>
    if c.index + word.length == stop.index then return (lexeme, stop)
    else throw (.at c.line .escapedKeyword)

end ClassMigration.Script.Word
