import ClassMigration.CommandLine.Help
import ClassMigration.Run

/-! The command line over a tree of files: all arguments are checked before the first file is read, and then
every outcome is told in the order of the files. A run that an error ends tells of nothing. -/
namespace ClassMigration.CommandLine

/-- What the program answers: its exit code or the error that it ends with, what it prints, the outcomes of
the files and the tree after the run. -/
structure Answer where
  exitCode : Except Abort Nat
  output : Text
  errors : Text
  outcomes : List FileOutcome
  tree : FileTree

/-- The last line that tells of arguments that are refused, not ended. -/
def usageError (fault : UsageFault) : Text := "deprecation-codemod: error: ".codePoints ++ fault.message

def refused (tree : FileTree) (exitCode : Nat) (errors : Text) : Answer :=
  ⟨.ok exitCode, [], errors, [], tree⟩

/-- The line of a changed file, and its text in a dry run. -/
def outputOf (dry : Bool) (outcome : FileOutcome) : Text :=
  match outcome.result with
  | .changed edits output =>
    "CHANGED    ".codePoints ++ outcome.path ++ " (".codePoints ++ Text.decimal edits ++ " edits)\n".codePoints ++
      if dry then output ++ [.char '\n'] else []
  | _ => []

def errorOf (outcome : FileOutcome) : Text :=
  match outcome.result with
  | .failed fault =>
    "FAILED     ".codePoints ++ outcome.path ++ ": ".codePoints ++ fault.message ++ [.char '\n']
  | _ => []

def reported (dry : Bool) : Except Abort (List FileOutcome) × FileTree → Answer
  | (.ok outcomes, tree) =>
    ⟨.ok (FileOutcome.exitCode outcomes), outcomes.flatMap (outputOf dry), outcomes.flatMap errorOf, outcomes, tree⟩
  | (.error abort, tree) => ⟨.error abort, [], [], [], tree⟩

def missingPaths (tree : FileTree) (request : Request) : List Text :=
  request.paths.filter fun path => !tree.contains path

/-- Answers a request, if its migration is known and all its paths are there. -/
def fulfil (tree : FileTree) (request : Request) : Except Failure Answer := do
  let migration ← match Migration.named? request.migration with
    | some migration => Except.ok migration
    | none => .error (.unknownMigration request.migration Migration.available)
  let missing := missingPaths tree request
  if missing.isEmpty then
    let run : Run := ⟨migration, request.options, request.dry⟩
    return reported request.dry (run.paths tree request.paths request.glob request.jobs)
  else .error (.foreseen ("No such file or directory: ".codePoints ++ Text.joined ", ".codePoints missing))

def answer (tree : FileTree) (arguments : List Text) : Answer :=
  match read arguments with
  | .error fault => refused tree 2 (usageError fault)
  | .ok none => ⟨.ok 0, help, [], [], tree⟩
  | .ok (some request) =>
    match fulfil tree request with
    | .ok answer => answer
    | .error failure => refused tree 3 (failure.report ++ [.char '\n'])

end ClassMigration.CommandLine
