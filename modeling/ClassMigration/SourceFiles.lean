import ClassMigration.Glob.Search

/-! The source files that paths name: a directory stands for the files in it that match a pattern, and any
other path for itself. -/
namespace ClassMigration

def scriptExtensions : List Text := [".js", ".jsx", ".mjs", ".cjs"].map String.codePoints
def stylesheetExtensions : List Text := [".css".codePoints]
def sourceExtensions : List Text := scriptExtensions ++ stylesheetExtensions

def hasExtension (extensions : List Text) (path : Text) : Bool := extensions.any path.endsWith

/-- Installed packages are not searched. -/
def isInstalled (path : Text) : Bool := (Path.steps path).contains "node_modules".codePoints

/-- Any file below a directory. -/
def anyFile : Text := "**/*".codePoints

namespace FileTree

/-- The files in a directory that match a pattern, by code point. -/
def filesIn (tree : FileTree) (pattern : Text) (extensions : List Text) (directory : Text) : List Text :=
  Text.sorted ((Glob.search tree (Path.join directory pattern)).filter fun path =>
    tree.isFile path && hasExtension extensions path && !isInstalled path)

def expand (tree : FileTree) (pattern : Text) (extensions : List Text) (path : Text) : List Text :=
  if tree.isDirectory path then tree.filesIn pattern extensions path else [path]

end FileTree

def firsts : List Text → List Text
  | [] => []
  | text :: more => text :: (firsts more).filter (· != text)

/-- The files that paths stand for, each path once. -/
def FileTree.sourceFiles (tree : FileTree) (paths : List Text) (pattern : Text) (extensions : List Text) :
    List Text :=
  firsts (paths.flatMap (tree.expand pattern extensions))

end ClassMigration
