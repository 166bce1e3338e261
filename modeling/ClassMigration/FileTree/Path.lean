import ClassMigration.Text

/-! Paths as text, with slashes between their steps. -/
namespace ClassMigration.Path

/-- A path inside a directory; one that begins with a slash stands by itself. -/
def join (directory path : Text) : Text :=
  if path.startsWith [.char '/'] then path
  else if directory.isEmpty || directory.endsWith [.char '/'] then directory ++ path
  else directory ++ .char '/' :: path

/-- The steps of a path; a doubled slash and a slash at an end make an empty step. -/
def steps (path : Text) : List Text := path.pieces '/'

/-- The path without the slashes at its end, unless it is nothing else. -/
def withoutEndSlashes (path : Text) : Text :=
  if path.all (· == .char '/') then path else (path.reverse.dropWhile (· == .char '/')).reverse

def isHidden (name : Text) : Bool := name.startsWith [.char '.']

end ClassMigration.Path
