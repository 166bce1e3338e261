import ClassMigration.CommandLine
import ClassMigration.Proofs.CommandLine.Switches

/-! What the program answers. Arguments that are refused, a migration that is not known and a path at which
nothing is end it before the first file is read; else its code and its lines tell of the outcomes, if no error
ends the run. Log records, which also stand among the errors, are left out. -/
namespace ClassMigration

namespace FileOutcome

def change? (outcome : FileOutcome) : Option (Text × Nat × Text) :=
  match outcome.result with
  | .changed edits output => some (outcome.path, edits, output)
  | _ => none

def failure? (outcome : FileOutcome) : Option (Text × FileFault) :=
  outcome.result.fault?.map (outcome.path, ·)

end FileOutcome

namespace CommandLine

def changeEntry (dry : Bool) : Text × Nat × Text → Text
  | (path, edits, output) =>
    "CHANGED    ".codePoints ++ path ++ " (".codePoints ++ Text.decimal edits ++ " edits)\n".codePoints ++
      if dry then output ++ [.char '\n'] else []

def failureLine : Text × FileFault → Text
  | (path, fault) => "FAILED     ".codePoints ++ path ++ ": ".codePoints ++ fault.message ++ [.char '\n']

/-- The request names a migration that is not known, or a path at which nothing is. -/
def Unfounded (tree : FileTree) (request : Request) : Prop :=
  Migration.named? request.migration = none ∨ ∃ path ∈ request.paths, tree.contains path = false

namespace Answer

/-- The code and the lines are those of the outcomes, in their order. -/
structure Tells (answer : Answer) (dry : Bool) : Prop where
  exitCode : answer.exitCode = .ok (if ∃ outcome ∈ answer.outcomes, outcome.result.isFailed then 1 else 0)
  output : answer.output = (answer.outcomes.filterMap FileOutcome.change?).flatMap (changeEntry dry)
  errors : answer.errors = (answer.outcomes.filterMap FileOutcome.failure?).flatMap failureLine

/-- No file has been migrated. -/
structure Idle (answer : Answer) (tree : FileTree) : Prop where
  tree : answer.tree = tree
  outcomes : answer.outcomes = []

/-- The answer is the help, and nothing else has been done. -/
structure Helps (answer : Answer) (tree : FileTree) : Prop extends answer.Idle tree where
  exitCode : answer.exitCode = .ok 0
  output : answer.output = help
  errors : answer.errors = []

/-- The answer of a run over the files that a request asks for. -/
structure Fulfils (answer : Answer) (tree : FileTree) (request : Request) (migration : Migration) : Prop where
  known : Migration.named? request.migration = some migration
  founded : ∀ path ∈ request.paths, tree.contains path = true
  run : Run.paths ⟨migration, request.options, request.dry⟩ tree request.paths request.glob request.jobs =
    (.ok answer.outcomes, answer.tree)
  tells : answer.Tells request.dry

end Answer

variable {tree : FileTree} {request : Request} {texts : List Text} {made : Answer}

@[simp] theorem refused_exitCode (tree : FileTree) (code : Nat) (errors : Text) :
    (refused tree code errors).exitCode = .ok code := rfl

@[simp] theorem refused_output (tree : FileTree) (code : Nat) (errors : Text) :
    (refused tree code errors).output = [] := rfl

@[simp] theorem idle_refused (tree : FileTree) (code : Nat) (errors : Text) :
    (refused tree code errors).Idle tree := ⟨rfl, rfl⟩

theorem flatMap_outputOf (dry : Bool) (outcomes : List FileOutcome) :
    outcomes.flatMap (outputOf dry) = (outcomes.filterMap FileOutcome.change?).flatMap (changeEntry dry) := by
  induction outcomes with
  | nil => rfl
  | cons outcome more ih =>
    obtain ⟨path, result⟩ := outcome
    rw [List.flatMap_cons, ih]
    cases result <;> rfl

theorem flatMap_errorOf (outcomes : List FileOutcome) :
    outcomes.flatMap errorOf = (outcomes.filterMap FileOutcome.failure?).flatMap failureLine := by
  induction outcomes with
  | nil => rfl
  | cons outcome more ih =>
    obtain ⟨path, result⟩ := outcome
    rw [List.flatMap_cons, ih]
    cases result <;> rfl

theorem missingPaths_isEmpty :
    (missingPaths tree request).isEmpty = true ↔ ∀ path ∈ request.paths, tree.contains path = true := by
  simp [missingPaths, List.filter_eq_nil_iff]

theorem reported_tells {dry : Bool} {outcomes : List FileOutcome} {last : FileTree} :
    (reported dry (.ok outcomes, last)).Tells dry :=
  ⟨by simp [reported, FileOutcome.exitCode], flatMap_outputOf _ _, flatMap_errorOf _⟩

/-- A request is refused where it is unfounded. Else it is fulfilled, or an error ends the run. -/
theorem fulfil_cases (tree : FileTree) (request : Request) :
    (Unfounded tree request ∧ ∃ failure, fulfil tree request = .error failure) ∨
      (¬Unfounded tree request ∧ ∃ made, fulfil tree request = .ok made ∧
        ((∃ abort, made.exitCode = .error abort) ∨ ∃ migration, made.Fulfils tree request migration)) := by
  unfold fulfil Unfounded
  cases known : Migration.named? request.migration with
  | none => exact .inl ⟨.inl rfl, _, rfl⟩
  | some migration =>
    by_cases founded : (missingPaths tree request).isEmpty = true
    · have all := missingPaths_isEmpty.mp founded
      refine .inr ⟨?_, _, if_pos founded, ?_⟩
      · rintro (unknown | ⟨path, mem, missing⟩)
        · cases unknown
        · rw [all path mem] at missing
          cases missing
      · rcases run : Run.paths ⟨migration, request.options, request.dry⟩ tree request.paths request.glob
          request.jobs with ⟨abort | outcomes, last⟩
        · exact .inl ⟨abort, rfl⟩
        · exact .inr ⟨migration, known, all, run, reported_tells⟩
    · refine .inl ⟨.inr ?_, _, if_neg founded⟩
      rw [missingPaths_isEmpty] at founded
      simpa using founded

/-- The code of a run is never that of a refusal. -/
theorem Answer.Tells.exitCode_lt {dry : Bool} {code : Nat} (tells : made.Tells dry)
    (own : made.exitCode = .ok code) : code < 2 := by
  rw [tells.exitCode] at own
  cases own
  split <;> decide

end CommandLine

end ClassMigration
