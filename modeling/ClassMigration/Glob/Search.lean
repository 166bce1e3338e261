import ClassMigration.FileTree
import ClassMigration.Glob

/-! Patterns of paths, whose steps are name patterns, and the search for the paths that match. The step `**`
stands for any number of directories, and at the end for files too; hidden ones are not entered. -/
namespace ClassMigration.Glob

/-- A step of a path pattern, from the first one on that is no plain name. -/
inductive Step where
  | name (text : Text)
  | pattern (text : Text)
  /-- `**` -/
  | anywhere
  /-- A slash at the end. -/
  | directory
  deriving DecidableEq, Repr

/-- Where a search starts, and the steps from there. -/
structure PathPattern where
  base : Text
  steps : List Step
  deriving DecidableEq, Repr

namespace Step

def ofText (text : Text) : Step :=
  if text = [.char '*', .char '*'] then anywhere else if isPattern text then pattern text else name text

/-- The steps between slashes; of slashes side by side one counts. -/
def ofTexts : List Text → List Step
  | [] => []
  | [text] => [if text = [] then directory else ofText text]
  | text :: more => if text = [] then ofTexts more else ofText text :: ofTexts more

end Step

namespace PathPattern

def ofText (text : Text) : PathPattern :=
  let plain := (Path.steps text).takeWhile fun step => !isPattern step
  let rest := (Path.steps text).dropWhile fun step => !isPattern step
  ⟨Path.withoutEndSlashes (if plain = [] then [] else Text.joined [.char '/'] plain ++ [.char '/']),
    Step.ofTexts rest⟩

end PathPattern

/-- Whether a search enters or finds a name: not a hidden one, and where it goes on, only a directory. -/
def isEntered (goesOn : Bool) (name : Text) (node : FileNode) : Bool :=
  !Path.isHidden name && (!goesOn || node.isDirectory)

/-- What a step finds in a directory, as paths from there. -/
def Step.found (tree : FileTree) (directory : Text) (goesOn : Bool) : Step → List Text
  | name text => if tree.contains (Path.join directory text) then [text] else []
  | pattern text =>
    ((((tree.directory? directory).map FileNode.entries).getD []).filter fun entry =>
      matchesName text entry.1 && (!goesOn || entry.2.isDirectory)).map Prod.fst
  | anywhere =>
    (if directory = [] ∨ tree.isDirectory directory then [[]] else []) ++
      (((tree.directory? directory).map (FileNode.descendants (isEntered goesOn))).getD [])
  | .directory => if tree.isDirectory directory then [[]] else []

/-- The paths found from some directories on. -/
def follow (tree : FileTree) : List Step → List Text → List Text
  | [], places => places
  | step :: more, places =>
    follow tree more (places.flatMap fun place =>
      (step.found tree place !more.isEmpty).map (Path.join place))

/-- The paths that match a pattern, in no particular order. A pattern without wildcards is matched by the
path of what it names. -/
def search (tree : FileTree) (text : Text) : List Text :=
  if isPattern text then
    let pattern := PathPattern.ofText text
    follow tree pattern.steps [pattern.base]
  else if tree.contains text then [text] else []

end ClassMigration.Glob
