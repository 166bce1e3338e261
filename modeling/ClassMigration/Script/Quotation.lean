import ClassMigration.Script.Cursor

/-! String literals and template chunks: where they end and what a string stands for. -/
namespace ClassMigration.Script.Quotation

/-- The value of an octal escape that begins with `first`, whether it counts as octal, and how many
more digits belong to it. A zero alone is no octal escape, and three digits need a first one below
four. -/
def octalCode (first : CodePoint) (rest : Text) : Nat × Bool × Nat :=
  let value := first.toNat - 48
  match rest with
  | second :: third :: _ =>
    if !Text.isOctalDigit second then (value, first != '0', 0)
    else if first ≤ '3' && Text.isOctalDigit third then
      ((value * 8 + (second.toNat - 48)) * 8 + (third.toNat - 48), true, 2)
    else (value * 8 + (second.toNat - 48), true, 1)
  | [second] =>
    if Text.isOctalDigit second then (value * 8 + (second.toNat - 48), true, 1)
    else (value, first != '0', 0)
  | [] => (value, first != '0', 0)

def controlOf? : CodePoint → Option CodePoint
  | 'n' => some (.char '\n')
  | 'r' => some (.char '\r')
  | 't' => some (.char '\t')
  | 'b' => some (.char '\x08')
  | 'f' => some (.char '\x0c')
  | 'v' => some (.char '\x0b')
  | _ => none

/-- The meaning of the escape after a backslash and whether it is octal. -/
def escape (c : Cursor) : Except Fault (Text × Bool × Cursor) :=
  match c.rest with
  | [] => .error c.illegal
  | 'u' :: '\x7b' :: rest =>
    match bracedCode? rest with
    | some (code, count) => .ok ([CodePoint.ofNat code], false, c.skip (2 + count))
    | none => .error c.illegal
  | 'u' :: rest =>
    match hexDigits? 4 0 rest with
    | some code => .ok ([CodePoint.ofNat code], false, c.skip 5)
    | none => .error c.illegal
  | 'x' :: rest =>
    match hexDigits? 2 0 rest with
    | some code => .ok ([CodePoint.ofNat code], false, c.skip 3)
    | none => .error (.at c.line .hexEscape)
  | '8' :: _ => .error c.illegal
  | '9' :: _ => .error c.illegal
  | '\r' :: '\n' :: rest => .ok ([], false, ⟨rest, c.index + 2, c.line + 1⟩)
  | char :: rest =>
    match controlOf? char with
    | some control => .ok ([control], false, c.skip 1)
    | none =>
      if Text.isOctalDigit char then
        let (code, octal, count) := octalCode char rest
        .ok ([CodePoint.ofNat code], octal, c.skip (1 + count))
      else if endsLine char then .ok ([], false, ⟨rest, c.index + 1, c.line + 1⟩)
      else .ok ([char], false, c.skip 1)

def body (quote : CodePoint) : Nat → Cursor → Except Fault (Text × Bool × Cursor)
  | 0, _ => .error .exhausted
  | fuel + 1, c =>
    match c.rest with
    | [] => .error c.illegal
    | '\\' :: _ => do
      let (value, octal, next) ← escape (c.skip 1)
      let (more, octals, stop) ← body quote fuel next
      return (value ++ more, octal || octals, stop)
    | char :: _ =>
      if char == quote then .ok ([], false, c.skip 1)
      else if endsLine char then .error c.illegal
      else do
        let (more, octals, stop) ← body quote fuel (c.skip 1)
        return (char :: more, octals, stop)

def read (fuel : Nat) (quote : CodePoint) (c : Cursor) : Except Fault (Lexeme × Cursor) := do
  let (value, octal, stop) ← body quote fuel (c.skip 1)
  return (.string value (c.rest.take (stop.index - c.index)) octal, stop)

/-- The end of the escape after a backslash in a template, where octal escapes are refused. -/
def chunkEscape (c : Cursor) : Except Fault Cursor :=
  match c.rest with
  | [] => .error c.illegal
  | 'u' :: '\x7b' :: rest =>
    match bracedCode? rest with
    | some (_, count) => .ok (c.skip (2 + count))
    | none => .error c.illegal
  | 'u' :: rest => .ok (c.skip (if (hexDigits? 4 0 rest).isSome then 5 else 1))
  | 'x' :: rest =>
    if (hexDigits? 2 0 rest).isSome then .ok (c.skip 3) else .error (.at c.line .hexEscape)
  | '0' :: rest =>
    if (rest.head?.map CodePoint.isDigit).getD false then .error (.at c.line .octalInTemplate)
    else .ok (c.skip 1)
  | '\r' :: '\n' :: rest => .ok ⟨rest, c.index + 2, c.line + 1⟩
  | char :: rest =>
    if Text.isOctalDigit char then .error (.at c.line .octalInTemplate)
    else if endsLine char then .ok ⟨rest, c.index + 1, c.line + 1⟩
    else .ok (c.skip 1)

/-- The end of a chunk's text, where a slot opens or the template closes, and whether it closes. -/
def chunkEnd : Nat → Cursor → Except Fault (Bool × Cursor)
  | 0, _ => .error .exhausted
  | fuel + 1, c =>
    match c.rest with
    | [] => .error c.illegal
    | '\x60' :: _ => .ok (true, c)
    | '$' :: '\x7b' :: _ => .ok (false, c)
    | '\\' :: _ => do chunkEnd fuel (← chunkEscape (c.skip 1))
    | '\r' :: '\n' :: rest => chunkEnd fuel ⟨rest, c.index + 2, c.line + 1⟩
    | char :: rest =>
      chunkEnd fuel ⟨rest, c.index + 1, if endsLine char then c.line + 1 else c.line⟩

/-- The chunk at the cursor, which stands at the template's opening or at the end of a slot. -/
def readChunk (fuel : Nat) (c : Cursor) : Except Fault (Lexeme × Cursor) := do
  let inner := c.skip 1
  let (closes, stop) ← chunkEnd fuel inner
  let raw := inner.rest.take (stop.index - inner.index)
  return (.chunk raw (c.rest.head? == some (.char '\x60')) closes, stop.skip (if closes then 1 else 2))

end ClassMigration.Script.Quotation
