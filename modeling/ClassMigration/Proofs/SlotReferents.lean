import ClassMigration.ScriptMigration
import ClassMigration.Proofs.ImportedNames
import ClassMigration.Proofs.Script.Scopes

/-! What the objects of rewritten slots stand for. The pass over the slots looks names up in the imports of
the whole script alone. So the last import that binds the name has to import the classes object, and where
no scope around the slot declares the name, that import is what the name stands for. A scope that does
declare it changes nothing. -/
namespace ClassMigration

open Script

/-- What a name stands for at a site. -/
inductive Referent where
  /-- A declaration in a scope around the site. -/
  | inner
  /-- A named import of the script. -/
  | imported (binding : ImportBinding)
  /-- Neither. -/
  | unknown
  deriving DecidableEq, Repr

/-- A scope around the site hides the imports of the script. -/
def Script.ScopedMember.referent (site : ScopedMember) (outline : Outline) (name : Text) : Referent :=
  if site.Declares name then .inner
  else
    match outline.bindingOf? name with
    | some binding => .imported binding
    | none => .unknown

theorem Script.Program.exists_of_run {source : Text} {holds : List Node → Prop} [DecidablePred holds]
    (run : (Program.parse source).toOption.any (fun items => decide (holds items)) = true) :
    ∃ items, Program.parse source = .ok items ∧ holds items := by
  cases parsed : Program.parse source with
  | error fault => simp [parsed, Except.toOption] at run
  | ok items => exact ⟨items, rfl, by simpa [parsed, Except.toOption] using run⟩

namespace Migration

variable (migration : Migration)

/-- The edit of one member under the symbols of a script. -/
def editAt? (symbols : Symbols) (source : Text) (member : Member) : Option Edit :=
  if isTrackedMember symbols member then (migration.slotMatch? member).bind (migration.slotEdit? source)
  else none

theorem slotEdits_eq_filterMap (outline : Outline) (symbols : Symbols) : migration.slotEdits outline symbols =
    outline.members.filterMap (migration.editAt? symbols outline.source) := by
  rw [slotEdits, slotMatches, List.filterMap_filterMap, List.filterMap_filter]
  rfl

/-- The edit that the pass over the slots makes for one member. -/
def memberEdit? (outline : Outline) (member : Member) : Option Edit :=
  migration.editAt? (migration.symbols outline) outline.source member

theorem isTrackedMember_iff {outline : Outline} {member : Member} :
    isTrackedMember (migration.symbols outline) member = true ↔
      ∃ name binding, member.object = some name ∧ name ≠ [] ∧
        outline.bindingOf? name = some binding ∧ migration.tracks binding = true := by
  rw [isTrackedMember]
  cases member.object with
  | none => simp
  | some name => simp [isTracked_symbols_iff]

theorem memberEdit?_eq_some_iff {outline : Outline} {member : Member} {edit : Edit} :
    migration.memberEdit? outline member = some edit ↔
      ∃ name binding, member.object = some name ∧ name ≠ [] ∧
        outline.bindingOf? name = some binding ∧ migration.tracks binding = true ∧
        (migration.slotMatch? member).bind (migration.slotEdit? outline.source) = some edit := by
  rw [memberEdit?, editAt?]
  by_cases tracked : isTrackedMember (migration.symbols outline) member = true
  · rw [if_pos tracked]
    obtain ⟨name, binding, object, filled, bound, tracks⟩ := migration.isTrackedMember_iff.mp tracked
    constructor
    · exact fun made => ⟨name, binding, object, filled, bound, tracks, made⟩
    · rintro ⟨_, _, -, -, -, -, made⟩
      exact made
  · rw [if_neg tracked]
    constructor
    · rintro ⟨⟩
    · rintro ⟨name, binding, object, filled, bound, tracks, -⟩
      exact absurd (migration.isTrackedMember_iff.mpr ⟨name, binding, object, filled, bound, tracks⟩) tracked

/-- Where the pass over the slots is left out it would make no edit. -/
theorem scriptEdits_eq_filterMap (outline : Outline) (options : Options) :
    migration.scriptEdits outline options =
      outline.members.filterMap (migration.memberEdit? outline) ++
        migration.literalEdits outline options := by
  have slots : migration.slotEdits outline (migration.symbols outline) =
      outline.members.filterMap (migration.memberEdit? outline) :=
    migration.slotEdits_eq_filterMap outline (migration.symbols outline)
  rw [scriptEdits]
  by_cases any : (migration.symbols outline).hasTracked = true
  · simp [any, slots]
  · -- no member passes the check without a tracked name
    have nothing : outline.members.filterMap (migration.memberEdit? outline) = [] := by
      refine List.filterMap_eq_nil_iff.mpr fun member _ => if_neg fun tracked => any ?_
      obtain ⟨name, binding, -, -, bound, tracks⟩ := migration.isTrackedMember_iff.mp tracked
      exact Symbols.hasTracked_of_isTracked (migration.isTracked_symbols_iff.mpr ⟨binding, bound, tracks⟩)
    simp [any, nothing]

variable {migration}

/-- The object of a rewritten slot stands for a tracked import, unless a scope around it declares the name. -/
theorem referent_of_memberEdit? {outline : Outline} {site : ScopedMember} {edit : Edit}
    (made : migration.memberEdit? outline site.member = some edit) :
    ∃ name, site.member.object = some name ∧
      (site.Declares name ∨
        ∃ binding, site.referent outline name = .imported binding ∧ migration.tracks binding = true) := by
  obtain ⟨name, binding, object, -, bound, tracks, -⟩ := migration.memberEdit?_eq_some_iff.mp made
  refine ⟨name, object, or_iff_not_imp_left.mpr fun free => ⟨binding, ?_, tracks⟩⟩
  rw [ScopedMember.referent, if_neg free, bound]

variable (migration)

/-- A slot in a function whose parameter has the name of the import, and a slot outside it. -/
def shadowing : Text :=
  "import \x7balertClasses\x7d from '@mui/material/Alert';
function f(alertClasses) \x7breturn `&.$\x7balertClasses.standardSuccess\x7d`\x7d
`&.$\x7balertClasses.filledInfo\x7d`".codePoints

/-- Both slots are rewritten. -/
theorem sites_shadowing :
    ∃ items, Program.parse shadowing = .ok items ∧
      (∃ site ∈ scopedMembers items, site.member.object = some "alertClasses".codePoints ∧
        ¬site.Declares "alertClasses".codePoints ∧
        (alert.memberEdit? (.ofItems shadowing items) site.member).isSome) ∧
      ∃ site ∈ scopedMembers items, site.member.place = .slot ["&.".codePoints, []] 0 ∧
        site.member.object = some "alertClasses".codePoints ∧ site.Declares "alertClasses".codePoints ∧
        ∃ edit ∈ alert.scriptEdits (.ofItems shadowing items) ⟨.unset, false⟩,
          edit.span.start < site.member.span.stop ∧ site.member.span.start < edit.span.stop :=
  Program.exists_of_run (by decide +kernel)

end Migration

end ClassMigration
