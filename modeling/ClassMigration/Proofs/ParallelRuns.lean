import Mathlib.Algebra.GroupWithZero.Nat
import Mathlib.Logic.Relation
import ClassMigration.Proofs.FileRuns

/-! Runs that work on several files at once. The work on a file is to read it and then, if it changes, to write
it. The steps of all files may come in any order in which each file is read before it is written; a bound on
the files in work would only leave out some of these orders. Once an error has ended the work on a file, files
behind it that are not read yet may be given up. Where no two paths lead to one file, a read sees the file as
it was at first and writes to different files commute. So every order comes to the outcomes, or to the error,
that one file after the other comes to. The trees are the same only if there is no error: several workers go on
with other files where a single one ends. -/
namespace ClassMigration

/-- How far the work on a file is. -/
inductive Stage where
  | waiting
  /-- The file is read and has to be written. -/
  | read (result : FileResult)
  | done (answer : Except Abort FileResult)
  /-- The file is not read any more. -/
  | cancelled

structure Task where
  path : Text
  stage : Stage

namespace Task

def Aborted (task : Task) : Prop := ∃ abort, task.stage = .done (.error abort)

/-- How many steps are still to come, at most. -/
def remaining (task : Task) : Nat :=
  match task.stage with
  | .waiting => 2
  | .read _ => 1
  | .done _ | .cancelled => 0

/-- What the work on all files has come to, if it is done: the outcomes, or the error of the first file that
has one. -/
def answer? : List Task → Option (Except Abort (List FileOutcome))
  | [] => some (.ok [])
  | task :: more =>
    match task.stage with
    | .done (.error abort) => some (.error abort)
    | .done (.ok result) => (answer? more).map (Except.map (⟨task.path, result⟩ :: ·))
    | _ => none

end Task

structure Pool where
  tree : FileTree
  tasks : List Task

namespace Pool

def start (tree : FileTree) (paths : List Text) : Pool := ⟨tree, paths.map (⟨·, .waiting⟩)⟩

def remaining (pool : Pool) : Nat := (pool.tasks.map Task.remaining).sum

end Pool

namespace Run

/-- A file that is read has to be written, or the work on it is done. -/
def stageOf (run : Run) : Except Abort FileResult → Stage
  | .ok result => if (run.written? result).isSome then .read result else .done (.ok result)
  | .error abort => .done (.error abort)

/-- One step of the work on one of the files. -/
inductive Step (run : Run) : Pool → Pool → Prop
  | read {tree : FileTree} {path : Text} {front back : List Task} :
      Step run ⟨tree, front ++ ⟨path, .waiting⟩ :: back⟩
        ⟨tree, front ++ ⟨path, run.stageOf (run.resultOn path (tree.read? path))⟩ :: back⟩
  | write {tree : FileTree} {path : Text} {result : FileResult} {front back : List Task} :
      Step run ⟨tree, front ++ ⟨path, .read result⟩ :: back⟩
        ⟨(run.write tree path result).2, front ++ ⟨path, .done (run.write tree path result).1⟩ :: back⟩
  | cancel {tree : FileTree} {path : Text} {front back : List Task} (ended : ∃ task ∈ front, task.Aborted) :
      Step run ⟨tree, front ++ ⟨path, .waiting⟩ :: back⟩ ⟨tree, front ++ ⟨path, .cancelled⟩ :: back⟩

/-- Any number of steps. -/
abbrev Reaches (run : Run) : Pool → Pool → Prop := Relation.ReflTransGen run.Step

/-- No step is left. -/
def Over (run : Run) (pool : Pool) : Prop := ∀ next, ¬run.Step pool next

variable {run : Run} {tree other : FileTree} {path path' : Text} {result : FileResult} {paths : List Text}
  {answer : Except Abort FileResult} {pool next : Pool} {tasks : List Task} {bytes? : Option Bytes}

/-! Every order of the steps comes to an end. -/

theorem remaining_stageOf : (⟨path, run.stageOf answer⟩ : Task).remaining ≤ 1 := by
  cases answer with
  | error abort => simp [stageOf, Task.remaining]
  | ok result =>
    rw [stageOf]
    split <;> simp [Task.remaining]

theorem Step.remaining_lt (step : run.Step pool next) : next.remaining < pool.remaining := by
  cases step with
  | @read tree path front back =>
    have := @remaining_stageOf run path (run.resultOn path (tree.read? path))
    simp only [Pool.remaining, List.map_append, List.map_cons, List.sum_append, List.sum_cons]
    simp only [Task.remaining] at this ⊢
    omega
  | write =>
    simp only [Pool.remaining, List.map_append, List.map_cons, List.sum_append, List.sum_cons, Task.remaining]
    omega
  | cancel =>
    simp only [Pool.remaining, List.map_append, List.map_cons, List.sum_append, List.sum_cons, Task.remaining]
    omega

theorem over_iff :
    run.Over pool ↔ ∀ task ∈ pool.tasks, (∃ answer, task.stage = .done answer) ∨ task.stage = .cancelled := by
  obtain ⟨tree, tasks⟩ := pool
  constructor
  · intro isOver task mem
    obtain ⟨front, back, rfl⟩ := List.append_of_mem mem
    obtain ⟨path, stage⟩ := task
    cases stage with
    | waiting => exact absurd .read (isOver _)
    | read result => exact absurd .write (isOver _)
    | done answer => exact .inl ⟨answer, rfl⟩
    | cancelled => exact .inr rfl
  · intro done next step
    cases step with
    | read => simpa using done _ (List.mem_append_right _ List.mem_cons_self)
    | write => simpa using done _ (List.mem_append_right _ List.mem_cons_self)
    | cancel => simpa using done _ (List.mem_append_right _ List.mem_cons_self)

theorem exists_over (run : Run) (pool : Pool) : ∃ last, run.Reaches pool last ∧ run.Over last := by
  induction left : pool.remaining using Nat.strongRecOn generalizing pool with
  | ind n ih =>
    by_cases isOver : run.Over pool
    · exact ⟨pool, .refl, isOver⟩
    · obtain ⟨next, step⟩ := Classical.not_forall_not.mp isOver
      obtain ⟨last, reached, ends⟩ := ih next.remaining (left ▸ step.remaining_lt) next rfl
      exact ⟨last, .head step reached, ends⟩

/-! Work on different files commutes, and is not seen by the read of another file. -/

theorem exists_write_eq_store (run : Run) (tree : FileTree) (path : Text) (result : FileResult) :
    ∃ bytes?, ∀ other, FileTree.SameNodes tree other →
      run.write other path result = ((run.write tree path result).1, other.store path bytes?) := by
  cases written : run.written? result with
  | none => exact ⟨none, fun other _ => by simp [write, written, FileTree.store]⟩
  | some output =>
    cases locked : tree.isLocked path with
    | true =>
      refine ⟨none, fun other same => ?_⟩
      simp [write, written, locked, ← same.isLocked, FileTree.store]
    | false =>
      cases encoded : Utf8.encode? output with
      | ok bytes =>
        refine ⟨some bytes, fun other same => ?_⟩
        simp [write, written, locked, encoded, ← same.isLocked, FileTree.store]
      | error found =>
        refine ⟨some [], fun other same => ?_⟩
        simp [write, written, locked, encoded, ← same.isLocked, FileTree.store]

/-- The work on a file is the same in every tree with the same nodes in which the file holds the same. -/
theorem exists_work_eq_store (run : Run) (tree : FileTree) (path : Text) :
    ∃ bytes?, ∀ other, FileTree.SameNodes tree other → other.read? path = tree.read? path →
      run.work other path = ((run.work tree path).1, other.store path bytes?) := by
  cases own : run.resultOn path (tree.read? path) with
  | error abort =>
    refine ⟨none, fun other _ held => ?_⟩
    rw [work_of_error own, work_of_error (held.symm ▸ own), FileTree.store]
  | ok result =>
    obtain ⟨bytes?, wrote⟩ := run.exists_write_eq_store tree path result
    refine ⟨bytes?, fun other same held => ?_⟩
    rw [work_of_ok own, work_of_ok (held.symm ▸ own), wrote other same]

theorem read?_work (apart : tree.Elsewhere path path') :
    (run.work tree path).2.read? path' = tree.read? path' := by
  obtain ⟨bytes?, own⟩ := run.exists_work_eq_store tree path
  rw [own tree (.refl tree) rfl]
  exact FileTree.read?_store apart

theorem work_fst_of_elsewhere (apart : tree.Elsewhere path path') :
    (run.work (run.work tree path).2 path').1 = (run.work tree path').1 := by
  obtain ⟨bytes?, own⟩ := run.exists_work_eq_store tree path'
  rw [own _ sameNodes_work (read?_work apart)]

theorem work_store (apart : tree.Elsewhere path path') :
    (run.work (tree.store path bytes?) path').2 = (run.work tree path').2.store path bytes? := by
  obtain ⟨bytes?', own⟩ := run.exists_work_eq_store tree path'
  rw [own tree (.refl tree) rfl, own _ FileTree.sameNodes_store (FileTree.read?_store apart)]
  exact FileTree.store_comm apart

/-- The tree after the finished work on one file. -/
def settle (run : Run) (tree : FileTree) (task : Task) : FileTree :=
  match task.stage with
  | .done _ => (run.work tree task.path).2
  | _ => tree

/-- The tree after all finished work, as if done in the order of the files. -/
def settled (run : Run) (tree : FileTree) (tasks : List Task) : FileTree := tasks.foldl run.settle tree

@[simp] theorem settled_cons (task : Task) (more : List Task) :
    run.settled tree (task :: more) = run.settled (run.settle tree task) more := rfl

@[simp] theorem settled_append (front back : List Task) :
    run.settled tree (front ++ back) = run.settled (run.settled tree front) back := List.foldl_append

@[simp] theorem settle_waiting : run.settle tree ⟨path, .waiting⟩ = tree := rfl

@[simp] theorem settle_read : run.settle tree ⟨path, .read result⟩ = tree := rfl

@[simp] theorem settle_done : run.settle tree ⟨path, .done answer⟩ = (run.work tree path).2 := rfl

@[simp] theorem settle_cancelled : run.settle tree ⟨path, .cancelled⟩ = tree := rfl

/-- A file that has been read is not written yet, or nothing is to be written. -/
theorem settle_stageOf : run.settle tree ⟨path, run.stageOf (run.resultOn path (tree.read? path))⟩ = tree := by
  cases own : run.resultOn path (tree.read? path) with
  | error abort => simp [stageOf, work_of_error own]
  | ok result =>
    rw [stageOf]
    split
    case isTrue => rfl
    case isFalse none =>
      rw [settle_done, work_of_ok own, write, Option.not_isSome_iff_eq_none.mp none]

theorem sameNodes_settle {task : Task} : FileTree.SameNodes tree (run.settle tree task) := by
  rw [settle]
  split
  · exact sameNodes_work
  · exact .refl tree

theorem sameNodes_settled (tasks : List Task) : FileTree.SameNodes tree (run.settled tree tasks) := by
  induction tasks generalizing tree with
  | nil => exact .refl tree
  | cons task more ih => exact sameNodes_settle.trans ih

theorem read?_settled (apart : ∀ task ∈ tasks, tree.Elsewhere task.path path) :
    (run.settled tree tasks).read? path = tree.read? path := by
  induction tasks generalizing tree with
  | nil => rfl
  | cons task more ih =>
    obtain ⟨own, apart⟩ := List.forall_mem_cons.mp apart
    rw [settled_cons, ih fun other mem => sameNodes_settle.elsewhere (apart other mem), settle]
    split
    · exact read?_work own
    · rfl

theorem settled_store (apart : ∀ task ∈ tasks, tree.Elsewhere task.path path) :
    run.settled (tree.store path bytes?) tasks = (run.settled tree tasks).store path bytes? := by
  induction tasks generalizing tree with
  | nil => rfl
  | cons task more ih =>
    obtain ⟨own, apart⟩ := List.forall_mem_cons.mp apart
    have later : run.settle (tree.store path bytes?) task = (run.settle tree task).store path bytes? := by
      simp only [settle]
      split
      · exact work_store own.symm
      · rfl
    rw [settled_cons, settled_cons, later]
    exact ih fun other mem => sameNodes_settle.elsewhere (apart other mem)

/-! The invariant of the steps. -/

/-- Work is given up only behind an error; `before` says whether one stands in front of the tasks. -/
def Excused (before : Prop) : List Task → Prop
  | [] => True
  | task :: more => (task.stage = .cancelled → before) ∧ Excused (before ∨ task.Aborted) more

theorem Excused.mono {before before' : Prop} (weaker : before → before') (excused : Excused before tasks) :
    Excused before' tasks := by
  induction tasks generalizing before before' with
  | nil => trivial
  | cons task more ih => exact ⟨fun own => weaker (excused.1 own), ih (Or.imp_left weaker) excused.2⟩

theorem excused_append {before : Prop} {front back : List Task} :
    Excused before (front ++ back) ↔
      Excused before front ∧ Excused (before ∨ ∃ task ∈ front, task.Aborted) back := by
  induction front generalizing before with
  | nil => simp [Excused]
  | cons task more ih => simp [Excused, ih, and_assoc, or_assoc]

theorem Excused.replace {before : Prop} {front back : List Task} {task task' : Task}
    (excused : Excused before (front ++ task :: back)) (open_ : ¬task.Aborted)
    (own : task'.stage = .cancelled → before ∨ ∃ other ∈ front, other.Aborted) :
    Excused before (front ++ task' :: back) := by
  obtain ⟨first, -, others⟩ := excused_append.mp excused
  refine excused_append.mpr ⟨first, own, others.mono ?_⟩
  exact Or.imp_right fun aborted => absurd aborted open_

/-- What is known of a file comes of the tree at first, work is given up only behind an error, and the tree is
what the finished work makes of it. -/
structure Sound (run : Run) (tree : FileTree) (paths : List Text) (pool : Pool) : Prop where
  paths : pool.tasks.map Task.path = paths
  read : ∀ task ∈ pool.tasks, ∀ result, task.stage = .read result →
    run.resultOn task.path (tree.read? task.path) = .ok result
  done : ∀ task ∈ pool.tasks, ∀ answer, task.stage = .done answer → answer = (run.work tree task.path).1
  excused : Excused False pool.tasks
  tree : pool.tree = run.settled tree pool.tasks

theorem sound_start : run.Sound tree paths (.start tree paths) where
  paths := by simp [Pool.start, Function.comp_def]
  read := by simp [Pool.start]
  done := by simp [Pool.start]
  excused := by
    have idle : ∀ before, Excused before (paths.map (⟨·, .waiting⟩)) := by
      induction paths with
      | nil => exact fun _ => trivial
      | cons path more ih => exact fun _ => ⟨nofun, ih _⟩
    exact idle False
  tree := by
    simp only [Pool.start]
    induction paths with
    | nil => rfl
    | cons path more ih => exact ih

theorem elsewhere_of_pairwise {front back : List Task} {task : Task}
    (distinct : ((front ++ task :: back).map Task.path).Pairwise tree.Elsewhere) :
    (∀ other ∈ front, tree.Elsewhere other.path task.path) ∧
      ∀ other ∈ back, tree.Elsewhere other.path task.path := by
  obtain ⟨-, later, between⟩ := List.pairwise_append.mp (List.pairwise_map.mp distinct)
  refine ⟨fun other mem => between other mem task List.mem_cons_self, fun other mem => ?_⟩
  exact ((List.pairwise_cons.mp later).1 other mem).symm

theorem forall_mem_replace {holds : Task → Prop} {front back : List Task} {task task' : Task}
    (all : ∀ other ∈ front ++ task :: back, holds other) (own : holds task') :
    ∀ other ∈ front ++ task' :: back, holds other := by
  simp only [List.forall_mem_append, List.forall_mem_cons] at all ⊢
  exact ⟨all.1, own, all.2.2⟩

theorem stage_of_read {seen : Except Abort FileResult} (came : run.resultOn path (tree.read? path) = seen) :
    (∀ result, run.stageOf seen = .read result → seen = .ok result) ∧
      ∀ answer, run.stageOf seen = .done answer → answer = (run.work tree path).1 := by
  cases seen with
  | error abort =>
    rw [work_of_error came]
    constructor
    · rintro result ⟨⟩
    · rintro answer ⟨⟩
      rfl
  | ok result =>
    rw [stageOf]
    split
    case isTrue =>
      constructor
      · rintro result ⟨⟩
        rfl
      · rintro answer ⟨⟩
    case isFalse none =>
      rw [work_of_ok came, write, Option.not_isSome_iff_eq_none.mp none]
      constructor
      · rintro result ⟨⟩
      · rintro answer ⟨⟩
        rfl

theorem stageOf_ne_cancelled : run.stageOf answer ≠ .cancelled := by
  cases answer with
  | error abort => nofun
  | ok result =>
    rw [stageOf]
    split <;> nofun

theorem Sound.step (distinct : paths.Pairwise tree.Elsewhere) (sound : run.Sound tree paths pool)
    (step : run.Step pool next) : run.Sound tree paths next := by
  obtain ⟨rfl, read, done, excused, same⟩ := sound
  cases step with
  | @read now path front back =>
    obtain ⟨before, behind⟩ := elsewhere_of_pairwise distinct
    obtain rfl : now = run.settled (run.settled tree front) back := by simpa using same
    have atFront : (run.settled tree front).read? path = tree.read? path := read?_settled before
    have seen : (run.settled (run.settled tree front) back).read? path = tree.read? path :=
      (read?_settled fun other mem => (sameNodes_settled front).elsewhere (behind other mem)).trans atFront
    obtain ⟨reads, ends⟩ := stage_of_read (congrArg (run.resultOn path) seen).symm
    refine ⟨by simp, forall_mem_replace read ?_, forall_mem_replace done ends, ?_, ?_⟩
    · exact fun result isRead => by rw [← seen, reads result isRead]
    · exact excused.replace nofun fun own => absurd own stageOf_ne_cancelled
    · have stays := @settle_stageOf run (run.settled tree front) path
      rw [atFront, ← seen] at stays
      rw [settled_append, settled_cons, stays]
  | @write now path result front back =>
    obtain ⟨before, behind⟩ := elsewhere_of_pairwise distinct
    obtain rfl : now = run.settled (run.settled tree front) back := by simpa using same
    have came : run.resultOn path (tree.read? path) = .ok result :=
      read _ (List.mem_append_right _ List.mem_cons_self) result rfl
    obtain ⟨bytes?, wrote⟩ := run.exists_write_eq_store tree path result
    have first : FileTree.SameNodes tree (run.settled tree front) := sameNodes_settled front
    have all : FileTree.SameNodes tree (run.settled (run.settled tree front) back) :=
      first.trans (sameNodes_settled back)
    have own : run.work (run.settled tree front) path =
        ((run.write tree path result).1, (run.settled tree front).store path bytes?) := by
      rw [work_of_ok ((read?_settled before).symm ▸ came), wrote _ first]
    refine ⟨by simp, forall_mem_replace read nofun, forall_mem_replace done ?_, excused.replace nofun nofun, ?_⟩
    · rintro answer ⟨⟩
      rw [work_of_ok came, wrote _ all]
    · rw [settled_append, settled_cons, settle_done, own, wrote _ all,
        settled_store fun other mem => first.elsewhere (behind other mem)]
  | @cancel now path front back ended =>
    refine ⟨by simp, forall_mem_replace read nofun, forall_mem_replace done nofun, ?_, by simpa using same⟩
    exact excused.replace nofun fun _ => .inr ended

theorem Sound.reaches (distinct : paths.Pairwise tree.Elsewhere) (reached : run.Reaches (.start tree paths) pool) :
    run.Sound tree paths pool := by
  induction reached with
  | refl => exact sound_start
  | tail _ step ih => exact ih.step distinct step

/-- Where the work on every file is done as on that file alone, or given up behind an error, it has come to what
one file after the other comes to. -/
theorem answer?_eq_files (distinct : (tasks.map Task.path).Pairwise tree.Elsewhere)
    (ends : ∀ task ∈ tasks, (∃ answer, task.stage = .done answer) ∨ task.stage = .cancelled)
    (done : ∀ task ∈ tasks, ∀ answer, task.stage = .done answer → answer = (run.work tree task.path).1)
    (excused : Excused False tasks) :
    Task.answer? tasks = some (run.files tree (tasks.map Task.path)).1 ∧
      ∀ outcomes, (run.files tree (tasks.map Task.path)).1 = .ok outcomes →
        run.settled tree tasks = (run.files tree (tasks.map Task.path)).2 := by
  induction tasks generalizing tree with
  | nil => exact ⟨rfl, fun _ _ => rfl⟩
  | cons task more ih =>
    obtain ⟨path, stage⟩ := task
    obtain ⟨own, later⟩ := List.pairwise_cons.mp distinct
    obtain ⟨⟨answer, rfl⟩ | rfl, endings⟩ := List.forall_mem_cons.mp ends
    · obtain ⟨first, dones⟩ := List.forall_mem_cons.mp done
      obtain rfl : answer = (run.work tree path).1 := first answer rfl
      rw [List.map_cons]
      rcases came : run.work tree path with ⟨abort | result, next⟩
      · rw [files_cons_of_error came]
        exact ⟨rfl, nofun⟩
      · have same := sameNodes_of_work came
        have alone : ∀ task ∈ more, ∀ answer, task.stage = .done answer →
            answer = (run.work next task.path).1 := by
          intro task mem answer isDone
          have kept := @work_fst_of_elsewhere run tree path task.path (own _ (List.mem_map_of_mem mem))
          rw [came] at kept
          rw [dones task mem answer isDone, kept]
        have further : Excused False more := by
          refine excused.2.mono ?_
          rintro (none | ⟨abort, isDone⟩)
          · exact none
          · rw [came] at isDone
            cases isDone
        obtain ⟨answers, trees⟩ := ih (later.imp fun apart => same.elsewhere apart) endings alone further
        rw [files_cons_of_ok came]
        refine ⟨?_, fun outcomes given => ?_⟩
        · simp only [Task.answer?, answers, Option.map_some]
        · rw [settled_cons, settle_done, came]
          rcases rest : run.files next (more.map Task.path) with ⟨abort | others, last⟩
          · rw [rest] at given
            cases given
          · rw [trees others (congrArg Prod.fst rest), rest]
    · exact absurd (excused.1 rfl) not_false

/-- However the steps of the work on different files come, the work ends, and in the end it has come to the
outcomes of one file after the other, in that tree, or to the same error. -/
theorem parallel_eq_files {run : Run} {tree : FileTree} {paths : List Text}
    (distinct : paths.Pairwise tree.Elsewhere) {pool : Pool} (reached : run.Reaches (.start tree paths) pool) :
    (∃ last, run.Reaches pool last ∧ run.Over last) ∧
      (run.Over pool → Task.answer? pool.tasks = some (run.files tree paths).1 ∧
        ∀ outcomes, (run.files tree paths).1 = .ok outcomes → pool.tree = (run.files tree paths).2) := by
  refine ⟨run.exists_over pool, fun isOver => ?_⟩
  obtain ⟨rfl, -, done, excused, same⟩ := Sound.reaches distinct reached
  rw [same]
  exact answer?_eq_files distinct (over_iff.mp isOver) done excused

/-! All files in their order, whatever becomes of each, is one of the orders. -/

theorem reaches_work (run : Run) (tree : FileTree) (path : Text) (front back : List Task) :
    run.Reaches ⟨tree, front ++ ⟨path, .waiting⟩ :: back⟩
      ⟨(run.work tree path).2, front ++ ⟨path, .done (run.work tree path).1⟩ :: back⟩ := by
  have read := @Step.read run tree path front back
  cases came : run.resultOn path (tree.read? path) with
  | error abort =>
    rw [came] at read
    rw [work_of_error came]
    exact .single read
  | ok result =>
    rw [came, stageOf] at read
    rw [work_of_ok came]
    split at read
    case isTrue => exact .tail (.single read) .write
    case isFalse none =>
      rw [write, Option.not_isSome_iff_eq_none.mp none]
      exact .single read

theorem exists_over_everyFile (run : Run) (tree : FileTree) (paths : List Text) :
    ∃ pool, run.Reaches (.start tree paths) pool ∧ run.Over pool ∧
      pool.tree = (run.everyFile tree paths).2 ∧
      Task.answer? pool.tasks = some (run.everyFile tree paths).1 := by
  have each : ∀ (paths : List Text) (tree : FileTree) (front : List Task), ∃ back : List Task,
      run.Reaches ⟨tree, front ++ paths.map (⟨·, .waiting⟩)⟩ ⟨(run.everyFile tree paths).2, front ++ back⟩ ∧
      (∀ task ∈ back, ∃ answer, task.stage = .done answer) ∧
      Task.answer? back = some (run.everyFile tree paths).1 := by
    intro paths
    induction paths with
    | nil => exact fun tree front => ⟨[], .refl, by simp, rfl⟩
    | cons path more ih =>
      intro tree front
      obtain ⟨back, reached, done, answer⟩ :=
        ih (run.work tree path).2 (front ++ [⟨path, .done (run.work tree path).1⟩])
      have first := run.reaches_work tree path front (more.map (⟨·, .waiting⟩))
      refine ⟨⟨path, .done (run.work tree path).1⟩ :: back, ?_, ?_, ?_⟩
      · simp only [List.append_assoc, List.singleton_append] at reached
        exact first.trans reached
      · exact List.forall_mem_cons.mpr ⟨⟨_, rfl⟩, done⟩
      · rcases came : run.work tree path with ⟨abort | result, next⟩
        · simp [Task.answer?, everyFile, came]
          rfl
        · rw [came] at answer
          simp [Task.answer?, everyFile, came, answer]
          rfl
  obtain ⟨tasks, reached, done, answer⟩ := each paths tree []
  exact ⟨_, reached, over_iff.mpr fun task mem => .inl (done task mem), rfl, answer⟩

/-- A literal that starts with a surrogate, written as an escape. -/
def halfPair : Text := "'\\ud800\\x26.MuiAlert-filledInfo'".codePoints

/-- The output of the first file cannot be encoded. The second is migrated by another worker only. -/
theorem exists_over_ne_files :
    let run : Run := ⟨.alert, .default, false⟩
    let sheet := ".MuiAlert-filledInfo\x7b\x7d".codePoints
    let tree : FileTree := ⟨.directory [("a.js".codePoints, .file (Utf8.encode halfPair)),
      ("b.css".codePoints, .file (Utf8.encode sheet))], []⟩
    let paths := ["a.js".codePoints, "b.css".codePoints]
    paths.Pairwise tree.Elsewhere ∧
      ∃ pool, run.Reaches (.start tree paths) pool ∧ run.Over pool ∧ pool.tree ≠ (run.files tree paths).2 := by
  intro run sheet tree paths
  obtain ⟨pool, reached, isOver, same, -⟩ := run.exists_over_everyFile tree paths
  have kept : (run.files tree paths).2.read? "b.css".codePoints = tree.read? "b.css".codePoints := by
    decide +kernel
  have changed : (run.everyFile tree paths).2.read? "b.css".codePoints ≠ tree.read? "b.css".codePoints := by
    decide +kernel
  refine ⟨by decide, pool, reached, isOver, fun equal => changed ?_⟩
  rw [← same, equal, kept]

end Run

end ClassMigration
