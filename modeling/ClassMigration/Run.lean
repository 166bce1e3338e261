import ClassMigration.ScriptMigration
import ClassMigration.SourceFiles
import ClassMigration.StylesheetMigration
import ClassMigration.Text.Display

/-! Runs of a migration over files. A file that cannot be read, migrated or written is reported; the others go
on. Some errors are not caught where a file is worked on. Such an error ends the run, without any outcome. -/
namespace ClassMigration

inductive FileFault where
  /-- There is no such file, or it is no text. -/
  | unread (path : Text)
  | failure (cause : Failure)
  /-- The system does not let the file be written. -/
  | unwritten (path : Text)

def FileFault.message : FileFault → Text
  | unread path => "Could not read file: ".codePoints ++ path
  | failure cause => cause.fileReport
  | unwritten path => "Could not write file: ".codePoints ++ path

/-- An error that ends a run. -/
inductive Abort where
  /-- There is a null character in a path. -/
  | nullInPath
  /-- There are surrogates in an output, or in a path. -/
  | unencodable (found : Utf8.Unencodable)
  deriving DecidableEq, Repr

def Abort.kindName : Abort → Text
  | nullInPath => "ValueError".codePoints
  | unencodable _ => "UnicodeEncodeError".codePoints

def Abort.message : Abort → Text
  | nullInPath => "embedded null byte".codePoints
  | unencodable found =>
    "'utf-8' codec can't encode character".codePoints ++
      (if found.stop = found.start + 1 then
        " '\\u".codePoints ++ Text.lowerHex 4 found.first.toNat ++ "' in position ".codePoints ++
          Text.decimal found.start
      else "s in position ".codePoints ++ Text.decimal found.start ++ .char '-' :: Text.decimal (found.stop - 1)) ++
      ": surrogates not allowed".codePoints

/-- Why a path can name no file. -/
def Abort.ofPath? (path : Text) : Option Abort :=
  match Utf8.unencodable? (fun c => c.isSurrogate && !c.isByte) 0 path with
  | some found => some (.unencodable found)
  | none => if .char '\x00' ∈ path then some .nullInPath else none

inductive FileResult where
  /-- No source file, by its name. -/
  | skipped
  | unchanged
  | changed (edits : Nat) (output : Text)
  | failed (fault : FileFault)

namespace FileResult

def name : FileResult → Text
  | skipped => "skipped".codePoints
  | unchanged => "unchanged".codePoints
  | changed .. => "changed".codePoints
  | failed _ => "failed".codePoints

def isFailed : FileResult → Bool
  | failed _ => true
  | _ => false

def edits : FileResult → Nat
  | changed edits _ => edits
  | _ => 0

def output? : FileResult → Option Text
  | changed _ output => some output
  | _ => none

def fault? : FileResult → Option FileFault
  | failed fault => some fault
  | _ => none

def ofOutcome (outcome : Outcome) : FileResult :=
  match outcome.status with
  | .changed => changed outcome.edits outcome.output
  | .unchanged => unchanged

end FileResult

/-- A migration with its options; a dry run writes nothing. -/
structure Run where
  migration : Migration
  options : Options
  dry : Bool

structure FileOutcome where
  path : Text
  result : FileResult

namespace Run

/-- Migrates the text of a file, by the file's extension as a stylesheet or as a script. -/
def migrated (run : Run) (path source : Text) : Except Failure Outcome :=
  if hasExtension stylesheetExtensions path then Migration.editSheet [run.migration] source (some path)
  else run.migration.editScript source run.options (some path)

/-- What comes of a file with these bytes, or of none, before it is written. -/
def resultOn (run : Run) (path : Text) (bytes : Option Bytes) : Except Abort FileResult :=
  if !hasExtension sourceExtensions path then .ok .skipped
  else match Abort.ofPath? path, bytes.bind Utf8.decode? with
    | some abort, _ => .error abort
    | none, none => .ok (.failed (.unread path))
    | none, some source => match run.migrated path source with
      | .ok outcome => .ok (.ofOutcome outcome)
      | .error failure => .ok (.failed (.failure failure))

def written? (run : Run) (result : FileResult) : Option Text :=
  if run.dry then none else result.output?

def write (run : Run) (tree : FileTree) (path : Text) (result : FileResult) :
    Except Abort FileResult × FileTree :=
  match run.written? result with
  | none => (.ok result, tree)
  | some output =>
    if tree.isLocked path then (.ok (.failed (.unwritten path)), tree)
    else match Utf8.encode? output with
      | .ok bytes => (.ok result, tree.overwrite path bytes)
      -- the file is emptied before its new text is encoded
      | .error found => (.error (.unencodable found), tree.overwrite path [])

def work (run : Run) (tree : FileTree) (path : Text) : Except Abort FileResult × FileTree :=
  match run.resultOn path (tree.read? path) with
  | .ok result => run.write tree path result
  | .error abort => (.error abort, tree)

/-- Works on files one after the other, up to one that ends the run. -/
def files (run : Run) : FileTree → List Text → Except Abort (List FileOutcome) × FileTree
  | tree, [] => (.ok [], tree)
  | tree, path :: more =>
    match run.work tree path with
    | (.error abort, last) => (.error abort, last)
    | (.ok result, next) =>
      let (outcomes, last) := run.files next more
      (outcomes.map (⟨path, result⟩ :: ·), last)

/-- Works on all files, as several workers do: where the work on one ends the run, the others are worked on
all the same. Of several errors the first file's counts. -/
def everyFile (run : Run) : FileTree → List Text → Except Abort (List FileOutcome) × FileTree
  | tree, [] => (.ok [], tree)
  | tree, path :: more =>
    let (result, next) := run.work tree path
    let (outcomes, last) := run.everyFile next more
    (result >>= fun result => outcomes.map (⟨path, result⟩ :: ·), last)

/-- Migrates the files that paths stand for, so many at a time. -/
def paths (run : Run) (tree : FileTree) (paths : List Text) (pattern : Text) (jobs : Int) :
    Except Abort (List FileOutcome) × FileTree :=
  let files := tree.sourceFiles paths pattern sourceExtensions
  if jobs ≤ 1 then run.files tree files else run.everyFile tree files

end Run

namespace FileOutcome

def exitCode (outcomes : List FileOutcome) : Nat :=
  if outcomes.any (·.result.isFailed) then 1 else 0

def count (outcomes : List FileOutcome) (name : Text) : Nat :=
  outcomes.countP (·.result.name == name)

def failedPaths (outcomes : List FileOutcome) : List Text :=
  (outcomes.filter (·.result.isFailed)).map path

end FileOutcome

end ClassMigration
