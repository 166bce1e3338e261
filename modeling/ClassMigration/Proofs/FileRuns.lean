import ClassMigration.Proofs.Encoding
import ClassMigration.Proofs.Overwriting
import ClassMigration.Run

/-! What a run leaves behind. Every file has one outcome, in the order in which the paths stand for the files;
a file that fails is left as it is and the run goes on. No node comes or goes, and a file holds either what it
held before or the output of the last outcome that changes it. A run that an error ends has done the same with
the files before. -/
namespace ClassMigration

namespace Run

def edits (run : Run) (path source : Text) : Except Failure (List Edit) :=
  if hasExtension stylesheetExtensions path then
    ((Stylesheet.Sheet.read source).mapError fun fault => .unreadable (some path) fault.text).map
      fun sheet => sheet.edits [run.migration]
  else
    ((Script.Outline.read source).mapError (.ofFault (some path))).map
      fun outline => run.migration.scriptEdits outline run.options

/-- A source file, by a name that a file can have. -/
structure Opens (path : Text) : Prop where
  known : hasExtension sourceExtensions path = true
  named : Abort.ofPath? path = none

/-- Why a file with these bytes, or without any, is not migrated. -/
inductive Fails (run : Run) (path : Text) : Option Bytes → FileFault → Prop
  | read : Fails run path none (.unread path)
  | decode {bytes : Bytes} (noText : Utf8.decode? bytes = none) : Fails run path (some bytes) (.unread path)
  | parse {bytes : Bytes} {source : Text} {failure : Failure} (text : Utf8.decode? bytes = some source)
      (unread : run.edits path source = .error failure) : Fails run path (some bytes) (.failure failure)
  | print {bytes : Bytes} {source : Text} {edits : List Edit} {overlap : Overlap}
      (text : Utf8.decode? bytes = some source) (found : run.edits path source = .ok edits)
      (clash : Edit.applyAll source edits = .error overlap) :
      Fails run path (some bytes) (.failure (.overlap overlap))

variable {run : Run} {tree next last : FileTree} {path source output : Text} {bytes : Bytes}
  {bytes? : Option Bytes} {result : FileResult} {fault : FileFault} {abort : Abort} {count : Nat}
  {location : Location} {found : Utf8.Unencodable}

theorem migrated_eq (run : Run) (path source : Text) :
    run.migrated path source =
      run.edits path source >>= fun edits => (Outcome.ofEdits source edits).mapError .overlap := by
  rw [migrated, edits]
  split
  · rw [Migration.editSheet]
    cases Stylesheet.Sheet.read source <;> rfl
  · rw [Migration.editScript, Script.Outline.read]
    cases Script.Program.parse source <;> rfl

theorem resultOn_eq {edits : List Edit} (opens : Opens path)
    (text : Utf8.decode? bytes = some source) (found : run.edits path source = .ok edits) :
    run.resultOn path (some bytes) =
      if edits = [] then .ok .unchanged
      else match Edit.applyAll source edits with
        | .ok output => .ok (.changed edits.length output)
        | .error overlap => .ok (.failed (.failure (.overlap overlap))) := by
  have migrated : run.migrated path source = (Outcome.ofEdits source edits).mapError .overlap := by
    rw [migrated_eq, found]
    rfl
  simp only [resultOn, opens.known, opens.named, Option.bind_some, text, migrated]
  cases edits with
  | nil => rfl
  | cons edit more =>
    rw [if_neg (List.cons_ne_nil _ _)]
    cases made : Edit.applyAll source (edit :: more) <;> simp [Outcome.ofEdits, made] <;> rfl

theorem resultOn_unread {failure : Failure} (opens : Opens path)
    (text : Utf8.decode? bytes = some source) (unread : run.edits path source = .error failure) :
    run.resultOn path (some bytes) = .ok (.failed (.failure failure)) := by
  have migrated : run.migrated path source = .error failure := by
    rw [migrated_eq, unread]
    rfl
  simp [resultOn, opens.known, opens.named, text, migrated]

theorem resultOn_undecoded (opens : Opens path) (noText : bytes?.bind Utf8.decode? = none) :
    run.resultOn path bytes? = .ok (.failed (.unread path)) := by
  simp [resultOn, opens.known, opens.named, noText]

theorem resultOn_skipped (other : hasExtension sourceExtensions path = false) :
    run.resultOn path bytes? = .ok .skipped := by
  simp [resultOn, other]

theorem resultOn_aborted (known : hasExtension sourceExtensions path = true)
    (unnamed : Abort.ofPath? path = some abort) : run.resultOn path bytes? = .error abort := by
  simp [resultOn, known, unnamed]

/-- What comes of a file before it is written. -/
inductive Comes (run : Run) (path : Text) (bytes? : Option Bytes) : Except Abort FileResult → Prop
  | skipped (other : hasExtension sourceExtensions path = false) : Comes run path bytes? (.ok .skipped)
  | aborted {abort : Abort} (known : hasExtension sourceExtensions path = true)
      (unnamed : Abort.ofPath? path = some abort) : Comes run path bytes? (.error abort)
  | failed {fault : FileFault} (opens : Opens path) (fails : run.Fails path bytes? fault) :
      Comes run path bytes? (.ok (.failed fault))
  | unchanged {bytes : Bytes} {source : Text} (opens : Opens path) (held : bytes? = some bytes)
      (text : Utf8.decode? bytes = some source) (none : run.edits path source = .ok []) :
      Comes run path bytes? (.ok .unchanged)
  | changed {bytes : Bytes} {source output : Text} {edits : List Edit} (opens : Opens path)
      (held : bytes? = some bytes) (text : Utf8.decode? bytes = some source)
      (found : run.edits path source = .ok edits) (some : edits ≠ [])
      (made : Edit.applyAll source edits = .ok output) :
      Comes run path bytes? (.ok (.changed edits.length output))

theorem comes (run : Run) (path : Text) (bytes? : Option Bytes) :
    run.Comes path bytes? (run.resultOn path bytes?) := by
  cases known : hasExtension sourceExtensions path with
  | false => exact resultOn_skipped known ▸ .skipped known
  | true =>
    cases named : Abort.ofPath? path with
    | some abort => exact resultOn_aborted known named ▸ .aborted known named
    | none =>
      have opens : Opens path := ⟨known, named⟩
      cases bytes? with
      | none =>
        rw [resultOn_undecoded opens rfl]
        exact .failed opens .read
      | some bytes =>
        cases text : Utf8.decode? bytes with
        | none =>
          have undecoded : (some bytes).bind Utf8.decode? = none := text
          rw [resultOn_undecoded opens undecoded]
          exact .failed opens (.decode text)
        | some source =>
          cases found : run.edits path source with
          | error failure => exact resultOn_unread opens text found ▸ .failed opens (.parse text found)
          | ok edits =>
            have whole := resultOn_eq opens text found
            by_cases none : edits = []
            · rw [whole, if_pos none]
              exact .unchanged opens rfl text (none ▸ found)
            · rw [if_neg none] at whole
              cases made : Edit.applyAll source edits with
              | ok output =>
                rw [made] at whole
                exact whole ▸ .changed opens rfl text found none made
              | error overlap =>
                rw [made] at whole
                exact whole ▸ .failed opens (.print text found made)

/-- A source file fails before it is written exactly where reading it, decoding it, parsing it or making its
edits fails. -/
theorem resultOn_eq_failed_iff :
    run.resultOn path bytes? = .ok (.failed fault) ↔ Opens path ∧ run.Fails path bytes? fault := by
  constructor
  · intro failed
    have own := run.comes path bytes?
    rw [failed] at own
    cases own with
    | failed opens fails => exact ⟨opens, fails⟩
  · rintro ⟨opens, fails⟩
    cases fails with
    | read => exact resultOn_undecoded opens rfl
    | decode noText => exact resultOn_undecoded opens noText
    | parse text unread => exact resultOn_unread opens text unread
    | print text found clash =>
      rw [resultOn_eq opens text found, if_neg, clash]
      rintro rfl
      cases clash

/-- A file is to be changed exactly where some edits are found in its text and all of them can be made. -/
theorem resultOn_eq_changed_iff :
    run.resultOn path bytes? = .ok (.changed count output) ↔
      Opens path ∧ ∃ bytes source edits, bytes? = some bytes ∧ Utf8.decode? bytes = some source ∧
        run.edits path source = .ok edits ∧ edits ≠ [] ∧ Edit.applyAll source edits = .ok output ∧
        count = edits.length := by
  constructor
  · intro changed
    have own := run.comes path bytes?
    rw [changed] at own
    cases own with
    | changed opens held text found some made => exact ⟨opens, _, _, _, held, text, found, some, made, rfl⟩
  · rintro ⟨opens, bytes, source, edits, rfl, text, found, some, made, rfl⟩
    rw [resultOn_eq opens text found, if_neg some, made]

/-! The work on one file. -/

theorem write_dry (dry : run.dry = true) : run.write tree path result = (.ok result, tree) := by
  simp [write, written?, dry]

theorem write_same (same : result.output? = none) : run.write tree path result = (.ok result, tree) := by
  simp [write, written?, same]

theorem write_locked (live : run.dry = false) (locked : tree.isLocked path = true) :
    run.write tree path (.changed count output) = (.ok (.failed (.unwritten path)), tree) := by
  simp [write, written?, live, FileResult.output?, locked]

theorem write_changed (live : run.dry = false) (free : tree.isLocked path = false)
    (encoded : Utf8.encode? output = .ok bytes) :
    run.write tree path (.changed count output) = (.ok (.changed count output), tree.overwrite path bytes) := by
  simp [write, written?, live, FileResult.output?, free, encoded]

theorem write_emptied (live : run.dry = false) (free : tree.isLocked path = false)
    (surrogates : Utf8.encode? output = .error found) :
    run.write tree path (.changed count output) = (.error (.unencodable found), tree.overwrite path []) := by
  simp [write, written?, live, FileResult.output?, free, surrogates]

inductive Writes (run : Run) (tree : FileTree) (path : Text) :
    FileResult → Except Abort FileResult × FileTree → Prop
  | idle {result : FileResult} (idle : run.dry = true ∨ result.output? = none) :
      Writes run tree path result (.ok result, tree)
  | refused {count : Nat} {output : Text} (live : run.dry = false) (locked : tree.isLocked path = true) :
      Writes run tree path (.changed count output) (.ok (.failed (.unwritten path)), tree)
  | done {count : Nat} {output : Text} {bytes : Bytes} (live : run.dry = false) (free : tree.isLocked path = false)
      (encoded : Utf8.encode? output = .ok bytes) :
      Writes run tree path (.changed count output) (.ok (.changed count output), tree.overwrite path bytes)
  | emptied {count : Nat} {output : Text} {found : Utf8.Unencodable} (live : run.dry = false)
      (free : tree.isLocked path = false) (surrogates : Utf8.encode? output = .error found) :
      Writes run tree path (.changed count output) (.error (.unencodable found), tree.overwrite path [])

theorem writes (run : Run) (tree : FileTree) (path : Text) (result : FileResult) :
    run.Writes tree path result (run.write tree path result) := by
  cases dry : run.dry with
  | true => exact write_dry dry ▸ .idle (.inl dry)
  | false =>
    cases result with
    | changed count output =>
      cases locked : tree.isLocked path with
      | true => exact write_locked dry locked ▸ .refused dry locked
      | false =>
        cases encoded : Utf8.encode? output with
        | ok bytes => exact write_changed dry locked encoded ▸ .done dry locked encoded
        | error found => exact write_emptied dry locked encoded ▸ .emptied dry locked encoded
    | _ =>
      rw [write_same rfl]
      exact .idle (.inr rfl)

theorem work_of_ok (own : run.resultOn path (tree.read? path) = .ok result) :
    run.work tree path = run.write tree path result := by
  rw [work, own]

theorem work_of_error (own : run.resultOn path (tree.read? path) = .error abort) :
    run.work tree path = (.error abort, tree) := by
  rw [work, own]

theorem sameNodes_write : FileTree.SameNodes tree (run.write tree path result).2 := by
  have wrote := run.writes tree path result
  generalize run.write tree path result = left at wrote ⊢
  cases wrote with
  | idle => exact .refl tree
  | refused => exact .refl tree
  | done | emptied => exact FileTree.sameNodes_overwrite _ _ _

theorem sameNodes_work : FileTree.SameNodes tree (run.work tree path).2 := by
  cases own : run.resultOn path (tree.read? path) with
  | ok result =>
    rw [work_of_ok own]
    exact sameNodes_write
  | error abort =>
    rw [work_of_error own]
    exact .refl tree

theorem sameNodes_of_work {answer : Except Abort FileResult} (own : run.work tree path = (answer, next)) :
    FileTree.SameNodes tree next := by
  have same := @sameNodes_work run tree path
  rw [own] at same
  exact same

theorem tree_of_work_dry {answer : Except Abort FileResult} (dry : run.dry = true)
    (own : run.work tree path = (answer, next)) : next = tree := by
  cases came : run.resultOn path (tree.read? path) with
  | ok result =>
    rw [work_of_ok came, write_dry dry] at own
    cases own
    rfl
  | error abort =>
    rw [work_of_error came] at own
    cases own
    rfl

/-- A file is reported as changed where it is to be changed and, unless the run is a dry one, its output can be
encoded and is written. -/
theorem work_eq_changed (done : run.work tree path = (.ok (.changed count output), next)) :
    run.resultOn path (tree.read? path) = .ok (.changed count output) ∧
      (run.dry = false → Utf8.Encodable output ∧ next = tree.overwrite path (Utf8.encode output)) := by
  cases own : run.resultOn path (tree.read? path) with
  | error abort =>
    rw [work_of_error own] at done
    cases done
  | ok result =>
    have wrote := run.writes tree path result
    rw [← work_of_ok own, done] at wrote
    cases wrote with
    | idle idle =>
      refine ⟨rfl, fun live => ?_⟩
      simp [live, FileResult.output?] at idle
    | done live free encoded =>
      obtain ⟨encodable, rfl⟩ := Utf8.encode?_eq_ok_iff.mp encoded
      exact ⟨rfl, fun _ => ⟨encodable, rfl⟩⟩

/-- A file that is to be changed cannot be written. -/
structure Refused (run : Run) (tree : FileTree) (path : Text) : Prop where
  live : run.dry = false
  locked : tree.isLocked path = true
  changed : ∃ count output, run.resultOn path (tree.read? path) = .ok (.changed count output)

theorem work_eq_failed_iff :
    (run.work tree path).1 = .ok (.failed fault) ↔
      (Opens path ∧ run.Fails path (tree.read? path) fault) ∨
      (run.Refused tree path ∧ fault = .unwritten path) := by
  rw [← resultOn_eq_failed_iff]
  cases own : run.resultOn path (tree.read? path) with
  | error abort =>
    have unchanged : ¬run.Refused tree path := fun refused => by simpa [own] using refused.changed
    simp [work_of_error own, unchanged]
  | ok result =>
    rw [work_of_ok own]
    have wrote := run.writes tree path result
    generalize run.write tree path result = left at wrote ⊢
    cases wrote with
    | idle idle =>
      simp only [Except.ok.injEq]
      constructor
      · exact .inl
      · rintro (same | ⟨⟨live, -, count, output, changed⟩, -⟩)
        · exact same
        · rw [own] at changed
          cases changed
          simp [live, FileResult.output?] at idle
    | refused live locked =>
      have refused : run.Refused tree path := ⟨live, locked, _, _, own⟩
      simp [refused, eq_comm]
    | done live free | emptied live free =>
      have written : ¬run.Refused tree path := fun refused => by simp [refused.locked] at free
      simp [written]

theorem work_of_failed (failed : run.work tree path = (.ok (.failed fault), next)) : next = tree := by
  cases own : run.resultOn path (tree.read? path) with
  | error abort =>
    rw [work_of_error own] at failed
    cases failed
  | ok result =>
    have wrote := run.writes tree path result
    rw [← work_of_ok own, failed] at wrote
    cases wrote with
    | idle => rfl
    | refused => rfl

/-- Why the work on a file ends in an error, with the tree that is left: a file whose output cannot be encoded is
emptied. -/
inductive Aborts (run : Run) (tree : FileTree) (path : Text) : Abort → FileTree → Prop
  | name {abort : Abort} (known : hasExtension sourceExtensions path = true)
      (unnamed : Abort.ofPath? path = some abort) : Aborts run tree path abort tree
  | encode {count : Nat} {output : Text} {found : Utf8.Unencodable} (live : run.dry = false)
      (free : tree.isLocked path = false)
      (changed : run.resultOn path (tree.read? path) = .ok (.changed count output))
      (surrogates : Utf8.encode? output = .error found) :
      Aborts run tree path (.unencodable found) (tree.overwrite path [])

theorem work_eq_error_iff : run.work tree path = (.error abort, next) ↔ run.Aborts tree path abort next := by
  constructor
  · intro ended
    have comes := run.comes path (tree.read? path)
    cases own : run.resultOn path (tree.read? path) with
    | error abort =>
      rw [work_of_error own] at ended
      rw [own] at comes
      cases ended
      cases comes with
      | aborted known unnamed => exact .name known unnamed
    | ok result =>
      have wrote := run.writes tree path result
      rw [← work_of_ok own, ended] at wrote
      cases wrote with
      | emptied live free surrogates => exact .encode live free own surrogates
  · intro aborts
    cases aborts with
    | name known unnamed => exact work_of_error (resultOn_aborted known unnamed)
    | encode live free changed surrogates => rw [work_of_ok changed, write_emptied live free surrogates]

/-! Runs over several files. -/

/-- The work on some files, one after the other, has these outcomes and leaves the last tree. -/
inductive Worked (run : Run) : FileTree → List FileOutcome → FileTree → Prop
  | nil {tree : FileTree} : Worked run tree [] tree
  | cons {tree next last : FileTree} {outcome : FileOutcome} {more : List FileOutcome}
      (own : run.work tree outcome.path = (.ok outcome.result, next)) (others : Worked run next more last) :
      Worked run tree (outcome :: more) last

theorem files_cons_of_error {more : List Text} (own : run.work tree path = (.error abort, next)) :
    run.files tree (path :: more) = (.error abort, next) := by
  rw [files, own]

theorem files_cons_of_ok {more : List Text} (own : run.work tree path = (.ok result, next)) :
    run.files tree (path :: more) =
      ((run.files next more).1.map (⟨path, result⟩ :: ·), (run.files next more).2) := by
  rw [files, own]

theorem files_eq_ok_iff {paths : List Text} {outcomes : List FileOutcome} :
    run.files tree paths = (.ok outcomes, last) ↔
      outcomes.map FileOutcome.path = paths ∧ run.Worked tree outcomes last := by
  induction paths generalizing tree outcomes with
  | nil =>
    constructor
    · rintro ⟨⟩
      exact ⟨rfl, .nil⟩
    · rintro ⟨named, worked⟩
      obtain rfl := List.map_eq_nil_iff.mp named
      cases worked
      rfl
  | cons path more ih =>
    constructor
    · intro given
      rcases own : run.work tree path with ⟨abort | result, next⟩
      · rw [files_cons_of_error own] at given
        cases given
      · rw [files_cons_of_ok own] at given
        rcases rest : run.files next more with ⟨abort | others, left⟩
        · rw [rest] at given
          cases given
        · rw [rest] at given
          cases given
          obtain ⟨named, worked⟩ := ih.mp rest
          exact ⟨congrArg (path :: ·) named, .cons own worked⟩
    · rintro ⟨named, worked⟩
      cases worked with
      | nil => cases named
      | cons own others =>
        obtain ⟨rfl, rest⟩ := List.cons.inj named
        rw [files_cons_of_ok own, ih.mpr ⟨rest, others⟩]
        rfl

/-- A run that an error ends has worked on the files before, and the work on the next one gave the error. -/
theorem files_eq_error_iff {paths : List Text} :
    run.files tree paths = (.error abort, last) ↔
      ∃ outcomes path back before, paths = outcomes.map FileOutcome.path ++ path :: back ∧
        run.Worked tree outcomes before ∧ run.work before path = (.error abort, last) := by
  induction paths generalizing tree with
  | nil =>
    constructor
    · rintro ⟨⟩
    · rintro ⟨outcomes, path, back, before, split, -⟩
      simp at split
  | cons path more ih =>
    constructor
    · intro ended
      rcases own : run.work tree path with ⟨abort | result, next⟩
      · rw [files_cons_of_error own] at ended
        cases ended
        exact ⟨[], path, more, tree, rfl, .nil, own⟩
      · rw [files_cons_of_ok own] at ended
        rcases rest : run.files next more with ⟨abort | others, left⟩
        · rw [rest] at ended
          cases ended
          obtain ⟨outcomes, file, back, before, rfl, worked, last⟩ := ih.mp rest
          exact ⟨⟨path, result⟩ :: outcomes, file, back, before, rfl, .cons own worked, last⟩
        · rw [rest] at ended
          cases ended
    · rintro ⟨outcomes, file, back, before, split, worked, ends⟩
      cases worked with
      | nil =>
        obtain ⟨rfl, rfl⟩ := List.cons.inj split
        exact files_cons_of_error ends
      | cons own others =>
        obtain ⟨rfl, rest⟩ := List.cons.inj split
        rw [files_cons_of_ok own, ih.mpr ⟨_, file, back, before, rest, others, ends⟩]
        rfl

/-- Where the work on no file gives an error, it makes no difference that the others would be worked on. -/
theorem everyFile_eq_ok_iff {paths : List Text} {outcomes : List FileOutcome} :
    run.everyFile tree paths = (.ok outcomes, last) ↔ run.files tree paths = (.ok outcomes, last) := by
  induction paths generalizing tree last outcomes with
  | nil => rfl
  | cons path more ih =>
    rcases own : run.work tree path with ⟨abort | result, next⟩
    · rw [everyFile, own, files_cons_of_error own]
      exact ⟨nofun, nofun⟩
    · have whole : run.everyFile tree (path :: more) =
          ((run.everyFile next more).1.map (⟨path, result⟩ :: ·), (run.everyFile next more).2) := by
        rw [everyFile, own]
        rfl
      rw [whole, files_cons_of_ok own]
      constructor
      · intro given
        rcases rest : run.everyFile next more with ⟨abort | others, left⟩
        · rw [rest] at given
          cases given
        · rw [rest] at given
          rw [ih.mp rest]
          exact given
      · intro given
        rcases rest : run.files next more with ⟨abort | others, left⟩
        · rw [rest] at given
          cases given
        · rw [rest] at given
          rw [ih.mpr rest]
          exact given

/-- The outcomes do not depend on how many files are migrated at a time. -/
theorem paths_eq_ok_iff {paths : List Text} {pattern : Text} {jobs : Int} {outcomes : List FileOutcome} :
    run.paths tree paths pattern jobs = (.ok outcomes, last) ↔
      run.files tree (tree.sourceFiles paths pattern sourceExtensions) = (.ok outcomes, last) := by
  rw [Run.paths]
  split
  · rfl
  · exact everyFile_eq_ok_iff

namespace Worked

variable {outcomes front back : List FileOutcome} {outcome : FileOutcome}

theorem sameNodes (worked : run.Worked tree outcomes last) : FileTree.SameNodes tree last := by
  induction worked with
  | nil => exact .refl _
  | cons own _ ih => exact (sameNodes_of_work own).trans ih

theorem tree_of_dry (dry : run.dry = true) (worked : run.Worked tree outcomes last) : last = tree := by
  induction worked with
  | nil => rfl
  | cons own _ ih => exact ih.trans (tree_of_work_dry dry own)

theorem append_iff :
    run.Worked tree (front ++ back) last ↔ ∃ between, run.Worked tree front between ∧ run.Worked between back last := by
  induction front generalizing tree with
  | nil =>
    constructor
    · exact fun worked => ⟨tree, .nil, worked⟩
    · rintro ⟨between, first, second⟩
      cases first
      exact second
  | cons outcome front ih =>
    constructor
    · intro worked
      cases worked with
      | cons own others =>
        obtain ⟨between, first, second⟩ := ih.mp others
        exact ⟨between, .cons own first, second⟩
    · rintro ⟨between, first, second⟩
      cases first with
      | cons own others => exact .cons own (ih.mpr ⟨between, others, second⟩)

theorem split (worked : run.Worked tree (front ++ outcome :: back) last) :
    ∃ before after, run.Worked tree front before ∧
      run.work before outcome.path = (.ok outcome.result, after) ∧ run.Worked after back last := by
  obtain ⟨before, first, second⟩ := append_iff.mp worked
  cases second with
  | cons own others => exact ⟨before, _, first, own, others⟩

end Worked

end Run

namespace FileOutcome

/-- The outcome changes the file at a location. -/
def Changes (outcome : FileOutcome) (tree : FileTree) (location : Location) : Prop :=
  tree.locate? outcome.path = some location ∧ ∃ count output, outcome.result = .changed count output

theorem changes_iff {a b : FileTree} (same : FileTree.SameNodes a b) {outcome : FileOutcome}
    {location : Location} : outcome.Changes a location ↔ outcome.Changes b location := by
  rw [Changes, Changes, same.locate?]

end FileOutcome

namespace Run

variable {run : Run} {tree next last : FileTree} {path output : Text} {result : FileResult} {abort : Abort}
  {location : Location} {outcomes front back : List FileOutcome} {outcome : FileOutcome} {count : Nat}

theorem bytesAt?_work_of_not (own : run.work tree outcome.path = (.ok outcome.result, next))
    (other : ¬outcome.Changes tree location) : next.bytesAt? location = tree.bytesAt? location := by
  cases came : run.resultOn outcome.path (tree.read? outcome.path) with
  | error abort =>
    rw [work_of_error came] at own
    cases own
  | ok result =>
    have wrote := run.writes tree outcome.path result
    rw [← work_of_ok came, own] at wrote
    generalize same : outcome.result = given at wrote
    cases wrote with
    | idle => rfl
    | refused => rfl
    | done live free encoded =>
      rw [FileTree.bytesAt?_overwrite, if_neg]
      exact fun leads => other ⟨leads, _, _, same⟩

theorem Worked.bytesAt?_of_not (worked : run.Worked tree outcomes last)
    (others : ∀ outcome ∈ outcomes, ¬outcome.Changes tree location) :
    last.bytesAt? location = tree.bytesAt? location := by
  induction worked with
  | nil => rfl
  | cons own _ ih =>
    obtain ⟨first, others⟩ := List.forall_mem_cons.mp others
    rw [ih fun outcome mem changes =>
      others outcome mem ((FileOutcome.changes_iff (sameNodes_of_work own)).mpr changes)]
    exact bytesAt?_work_of_not own first

theorem exists_file_of_changed
    (changed : run.resultOn path (tree.read? path) = .ok (.changed count output)) :
    ∃ location bytes, tree.locate? path = some location ∧ tree.bytesAt? location = some bytes := by
  obtain ⟨-, bytes, -, -, read, -⟩ := resultOn_eq_changed_iff.mp changed
  rw [FileTree.read?_eq] at read
  obtain ⟨location, leads, held⟩ := Option.bind_eq_some_iff.mp read
  exact ⟨location, bytes, leads, held⟩

theorem Worked.bytesAt?_of_last (live : run.dry = false) (worked : run.Worked tree (front ++ outcome :: back) last)
    (leads : tree.locate? outcome.path = some location) (changed : outcome.result = .changed count output)
    (others : ∀ later ∈ back, ¬later.Changes tree location) :
    last.bytesAt? location = some (Utf8.encode output) := by
  obtain ⟨before, after, first, own, rest⟩ := worked.split
  have same : FileTree.SameNodes tree after := first.sameNodes.trans (sameNodes_of_work own)
  rw [changed] at own
  obtain ⟨came, wrote⟩ := work_eq_changed own
  obtain ⟨place, bytes, found, held⟩ := exists_file_of_changed came
  obtain rfl : location = place := Option.some.inj (leads.symm.trans ((first.sameNodes.locate? _).trans found))
  have quiet : ∀ later ∈ back, ¬later.Changes after location :=
    fun later mem changes => others later mem ((FileOutcome.changes_iff same).mpr changes)
  rw [rest.bytesAt?_of_not quiet, (wrote live).2, FileTree.bytesAt?_overwrite, if_pos found, held]
  rfl

/-- Whatever a run comes to, every node is where it was, and a dry run leaves the tree as it is. A run that an
error ends has worked on the files before the one at which it ends, which is left as it was if its path could
name nothing and emptied if its output cannot be encoded. Else the run has one outcome for each file that
the paths stand for, in order. Each comes of the tree that the files before it have left; it has failed exactly
where the file cannot be read, decoded, parsed, edited or written, and then that tree stays and the run goes on
with the next file. Unless the run is a dry one, each file has kept its bytes where no outcome changes it, and
holds the output of the last outcome that does. -/
theorem files_effects (run : Run) (tree : FileTree) (paths : List Text) :
    let last := (run.files tree paths).2
    FileTree.SameNodes tree last ∧
    (run.dry = true → last = tree) ∧
    (∀ abort, (run.files tree paths).1 = .error abort → ∃ outcomes path back before,
      paths = outcomes.map FileOutcome.path ++ path :: back ∧ run.Worked tree outcomes before ∧
      run.Aborts before path abort last) ∧
    ∀ outcomes, (run.files tree paths).1 = .ok outcomes →
      outcomes.map FileOutcome.path = paths ∧
      (∀ front outcome back, outcomes = front ++ outcome :: back → ∃ before after,
        run.Worked tree front before ∧ run.work before outcome.path = (.ok outcome.result, after) ∧
        run.Worked after back last ∧
        (∀ fault, outcome.result = .failed fault ↔
          (Opens outcome.path ∧ run.Fails outcome.path (before.read? outcome.path) fault) ∨
          (run.Refused before outcome.path ∧ fault = .unwritten outcome.path)) ∧
        (outcome.result.isFailed = true → after = before)) ∧
      (run.dry = false → ∀ location,
        ((∀ outcome ∈ outcomes, ¬outcome.Changes tree location) →
          last.bytesAt? location = tree.bytesAt? location) ∧
        ∀ front outcome back count output, outcomes = front ++ outcome :: back →
          tree.locate? outcome.path = some location → outcome.result = .changed count output →
          (∀ later ∈ back, ¬later.Changes tree location) →
          last.bytesAt? location = some (Utf8.encode output)) := by
  intro last
  rcases made : run.files tree paths with ⟨abort | outcomes, left⟩
  · obtain rfl : last = left := congrArg Prod.snd made
    obtain ⟨outcomes, path, back, before, split, worked, ended⟩ := files_eq_error_iff.mp made
    refine ⟨worked.sameNodes.trans (sameNodes_of_work ended), fun dry => ?_, ?_, ?_⟩
    · exact (tree_of_work_dry dry ended).trans (worked.tree_of_dry dry)
    · rintro abort ⟨⟩
      exact ⟨outcomes, path, back, before, split, worked, work_eq_error_iff.mp ended⟩
    · rintro outcomes ⟨⟩
  · obtain rfl : last = left := congrArg Prod.snd made
    obtain ⟨named, worked⟩ := files_eq_ok_iff.mp made
    refine ⟨worked.sameNodes, fun dry => worked.tree_of_dry dry, ?_, ?_⟩
    · rintro abort ⟨⟩
    rintro outcomes ⟨⟩
    refine ⟨named, ?_, fun live location => ⟨worked.bytesAt?_of_not, ?_⟩⟩
    · rintro front outcome back rfl
      obtain ⟨before, after, first, own, others⟩ := worked.split
      refine ⟨before, after, first, own, others, fun fault => ?_, fun failed => ?_⟩
      · rw [← work_eq_failed_iff, own, Except.ok.injEq]
      · generalize outcome.result = result at own failed
        cases result with
        | failed fault => exact work_of_failed own
        | _ => cases failed
    · rintro front outcome back count output rfl leads changed others
      exact worked.bytesAt?_of_last live leads changed others

end Run

end ClassMigration
