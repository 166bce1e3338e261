import ClassMigration.Text

/-! Levels of logging by name. -/
namespace ClassMigration.LogLevel

def initial : Nat := 30

def named : List (String × Nat) :=
  [("NOTSET", 0), ("DEBUG", 10), ("INFO", 20), ("WARNING", 30), ("WARN", 30), ("ERROR", 40),
    ("CRITICAL", 50), ("FATAL", 50)]

/-- The upper case of a letter, as far as it is an ASCII one. -/
def upper (c : CodePoint) : CodePoint :=
  if c == '\u0131' then 'I' else if c == '\u017f' then 'S' else c.toUpper

/-- The level after one is set by name, in either case; an unknown name changes nothing. -/
def set (level : Nat) (name : Text) : Nat :=
  ((named.find? (·.1.codePoints == name.map upper)).map Prod.snd).getD level

end ClassMigration.LogLevel
