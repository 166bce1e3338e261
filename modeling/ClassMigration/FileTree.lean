import ClassMigration.FileTree.Path
import ClassMigration.Text.Utf8

/-! Trees of files and directories, without links, and the paths that lead through them. A path is followed
step by step: every step leaves an existing directory, an empty one and `.` stay there, and `..` leads to
its parent. -/
namespace ClassMigration

/-- A file with its bytes, or a directory with its entries by name. A locked file is one that the system does
not let the program write. Of two entries with one name the first counts. -/
inductive FileNode where
  | file (bytes : Bytes) (locked : Bool := false)
  | directory (entries : List (Text × FileNode))

/-- The names that lead from the root to a node. -/
abbrev Location := List Text

namespace FileNode

def isDirectory : FileNode → Bool
  | directory _ => true
  | file .. => false

def isLocked : FileNode → Bool
  | directory _ => false
  | file _ locked => locked

def entries : FileNode → List (Text × FileNode)
  | directory entries => entries
  | file .. => []

def bytes? : FileNode → Option Bytes
  | file bytes _ => some bytes
  | directory _ => none

def child? (node : FileNode) (name : Text) : Option FileNode :=
  (node.entries.find? (·.1 == name)).map Prod.snd

def at? : Location → FileNode → Option FileNode
  | [], node => some node
  | name :: more, node => (node.child? name).bind (at? more)

def changeEntry (name : Text) (change : FileNode → FileNode) :
    List (Text × FileNode) → List (Text × FileNode)
  | [] => []
  | (other, node) :: more =>
    if other = name then (other, change node) :: more
    else (other, node) :: changeEntry name change more

/-- Gives the file at a location other bytes. Where no file is, nothing changes. -/
def overwrite (bytes : Bytes) : Location → FileNode → FileNode
  | [], file _ locked => file bytes locked
  | [], directory entries => directory entries
  | _ :: _, file old locked => file old locked
  | name :: more, directory entries => directory (changeEntry name (overwrite bytes more) entries)

/-- Puts a node at a location and makes the directories on the way. A node may replace one of its own
kind; a directory that is there already stays. -/
def put? (new : FileNode) : Location → FileNode → Option FileNode
  | [], file .. => if new.isDirectory then none else some new
  | [], directory entries => if new.isDirectory then some (directory entries) else none
  | _ :: _, file .. => none
  | name :: more, directory entries =>
    match (entries.find? (·.1 == name)).map Prod.snd with
    | some child =>
      (put? new more child).map fun child => directory (changeEntry name (fun _ => child) entries)
    | none =>
      (if more.isEmpty then some new else put? new more (directory [])).map fun child =>
        directory (entries ++ [(name, child)])

def erase : Location → FileNode → FileNode
  | [name], directory entries => directory (entries.filter (·.1 != name))
  | name :: more, directory entries => directory (changeEntry name (erase more) entries)
  | _, node => node

mutual

/-- The paths below a node, each before those inside it, that lead through directories alone, `wanted`
choosing the names to enter. -/
def descendants (wanted : Text → FileNode → Bool) : FileNode → List Text
  | file .. => []
  | directory entries => descendantsOf wanted entries

def descendantsOf (wanted : Text → FileNode → Bool) : List (Text × FileNode) → List Text
  | [] => []
  | (name, node) :: more =>
    (if wanted name node then name :: (descendants wanted node).map fun path => name ++ .char '/' :: path
      else []) ++ descendantsOf wanted more

end

end FileNode

/-- A root directory and the directory from which paths start that do not begin with a slash. -/
structure FileTree where
  root : FileNode
  current : Location

namespace FileTree

def at? (tree : FileTree) (location : Location) : Option FileNode := tree.root.at? location

/-- The location after one step of a path, whether or not anything is there. -/
def after (location : Location) (step : Text) : Location :=
  if step = [] ∨ step = [.char '.'] then location
  else if step = [.char '.', .char '.'] then location.dropLast
  else location ++ [step]

def step? (tree : FileTree) (location : Location) (step : Text) : Option Location :=
  if (tree.at? location).any FileNode.isDirectory && (tree.at? (after location step)).isSome then
    some (after location step)
  else none

def start (tree : FileTree) (path : Text) : Location :=
  if path.startsWith [.char '/'] then [] else tree.current

def locate? (tree : FileTree) (path : Text) : Option Location :=
  if path = [] then none else (Path.steps path).foldlM tree.step? (tree.start path)

def node? (tree : FileTree) (path : Text) : Option FileNode :=
  (tree.locate? path).bind tree.at?

def contains (tree : FileTree) (path : Text) : Bool := (tree.node? path).isSome

def isDirectory (tree : FileTree) (path : Text) : Bool :=
  (tree.node? path).any FileNode.isDirectory

def isFile (tree : FileTree) (path : Text) : Bool :=
  (tree.node? path).any fun node => !node.isDirectory

def isLocked (tree : FileTree) (path : Text) : Bool := (tree.node? path).any FileNode.isLocked

def read? (tree : FileTree) (path : Text) : Option Bytes := (tree.node? path).bind FileNode.bytes?

/-- The node that a directory's path stands for; the empty path stands for the current directory. -/
def directory? (tree : FileTree) (path : Text) : Option FileNode :=
  if path = [] then tree.at? tree.current else tree.node? path

def overwrite (tree : FileTree) (path : Text) (bytes : Bytes) : FileTree :=
  match tree.locate? path with
  | some location => { tree with root := tree.root.overwrite bytes location }
  | none => tree

/-- The location that a path names, whether or not anything is there. -/
def named (tree : FileTree) (path : Text) : Location :=
  (Path.steps path).foldl after (tree.start path)

/-- Puts a file at a path, unless a directory is there. -/
def put? (tree : FileTree) (path : Text) (bytes : Bytes) : Option FileTree :=
  ((FileNode.file bytes).put? (tree.named path) tree.root).map ({ tree with root := · })

def makeDirectory? (tree : FileTree) (path : Text) : Option FileTree :=
  ((FileNode.directory []).put? (tree.named path) tree.root).map ({ tree with root := · })

def erase (tree : FileTree) (path : Text) : FileTree :=
  match tree.locate? path with
  | some location => { tree with root := tree.root.erase location }
  | none => tree

/-- The paths of all files below the current directory, by code point. -/
def files (tree : FileTree) : List Text :=
  match tree.at? tree.current with
  | some node => Text.sorted ((node.descendants fun _ _ => true).filter tree.isFile)
  | none => []

end FileTree

end ClassMigration
