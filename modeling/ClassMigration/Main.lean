import ClassMigration.CommandLine

/-! The program: it loads what the arguments name, answers them, and writes the files that change. -/
namespace ClassMigration.Main

/-- A location to load; a deep one with everything below it. -/
structure Wanted where
  location : Location
  deep : Bool

def Wanted.below? (name : Text) (wanted : Wanted) : Option Wanted :=
  if wanted.location = [] then if wanted.deep then some wanted else none
  else if wanted.location.head? = some name then some { wanted with location := wanted.location.tail }
  else none

/-- The locations that a path passes. -/
def passed (location : Location) : List Text → List Wanted
  | [] => []
  | step :: more => ⟨FileTree.after location step, false⟩ :: passed (FileTree.after location step) more

/-- What has to be loaded to follow a path and to search where it leads. -/
def wantedFor (tree : FileTree) (path : Text) : List Wanted :=
  ⟨tree.named path, true⟩ :: passed (tree.start path) (Path.steps path)

def wantedBy (tree : FileTree) (request : CommandLine.Request) : List Wanted :=
  ⟨tree.current, false⟩ :: request.paths.flatMap fun path =>
    wantedFor tree path ++
      wantedFor tree (Glob.PathPattern.ofText (Path.join path request.glob)).base

/-- Whether the system lets a file be written; its bytes stay as they are. -/
def canWrite (entry : IO.FS.DirEntry) : IO Bool := do
  try
    discard (IO.FS.Handle.mk entry.path .readWrite)
    return true
  catch _ => return false

/-- A file that the program may migrate. One that cannot be read has no bytes of a text. -/
def loadFile (entry : IO.FS.DirEntry) : IO FileNode := do
  if hasExtension sourceExtensions entry.fileName.codePoints then
    let locked := !(← canWrite entry)
    try return .file (← IO.FS.readBinFile entry.path).toList locked
    catch _ => return .file [0xFF] locked
  else return .file []

partial def load (entry : IO.FS.DirEntry) (wanted : List Wanted) : IO FileNode := do
  if ← entry.path.isDir then
    let mut entries : List (Text × FileNode) := []
    let names ← try entry.path.readDir catch _ => pure #[]
    for child in names do
      let name := child.fileName.codePoints
      let inside := wanted.filterMap (Wanted.below? name)
      if !inside.isEmpty then
        if ← child.path.pathExists then
          entries := (name, ← load child inside) :: entries
    return .directory entries
  else loadFile entry

def loadTree (request : CommandLine.Request) : IO FileTree := do
  let current := (Path.steps (← IO.currentDir).toString.codePoints).filter fun step => step != []
  let tree : FileTree := ⟨.directory [], current⟩
  return { tree with root := ← load ⟨"/", "."⟩ (wantedBy tree request) }

/-- A text as a string; what is no character is shown as replaced. -/
def stringOf (text : Text) : String := String.ofList (text.map fun c => c.char?.getD '\uFFFD')

def store (before after : FileTree) (paths : List Text) : IO Unit :=
  for path in paths do
    if let some bytes := after.read? path then
      if before.read? path != some bytes then
        IO.FS.writeBinFile (stringOf path) (ByteArray.mk bytes.toArray)

/-- Prints an answer and gives its exit code; refused arguments are told after the usage. -/
def report (answer : CommandLine.Answer) : IO UInt32 := do
  IO.print (stringOf answer.output)
  match answer.exitCode with
  | .ok code =>
    if code == 2 then IO.eprintln (stringOf (CommandLine.usage ++ answer.errors))
    else IO.eprint (stringOf answer.errors)
    return UInt32.ofNat code
  | .error abort =>
    IO.eprintln (stringOf (abort.kindName ++ ": ".codePoints ++ abort.message))
    return 1

end ClassMigration.Main

open ClassMigration in
def main (arguments : List String) : IO UInt32 := do
  let texts := arguments.map String.codePoints
  match CommandLine.read texts with
  | .ok (some request) =>
    let tree ← Main.loadTree request
    let answer := CommandLine.answer tree texts
    Main.store tree answer.tree (tree.sourceFiles request.paths request.glob sourceExtensions)
    Main.report answer
  | _ => Main.report (CommandLine.answer ⟨.directory [], []⟩ texts)
