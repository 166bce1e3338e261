import Mathlib.Logic.Embedding.Basic
import ClassMigration.Proofs.SlotReferents

/-! Scripts whose imports go by other names. A migration tells names apart and does nothing else with them: where
different names stay different, the renamed script has the same edits, and its tracked names are the renamed ones. -/
namespace ClassMigration

open Script

abbrev Name := {text : Text // text ≠ []}

/-- Other names for names, different ones for different names. -/
abbrev Renaming := Name ↪ Name

namespace Renaming

variable (r : Renaming) {a b : Text}

/-- The new name for a text. An empty text names nothing and stays. -/
def rename (text : Text) : Text := if filled : text ≠ [] then r ⟨text, filled⟩ else []

theorem rename_name (name : Name) : r.rename name = r name := dif_pos name.2

@[simp] theorem rename_eq_nil_iff : r.rename a = [] ↔ a = [] := by
  rw [rename]
  split
  case isTrue filled => exact iff_of_false (r ⟨a, filled⟩).2 filled
  case isFalse empty => exact iff_of_true rfl (Classical.not_not.mp empty)

@[simp] theorem rename_inj : r.rename a = r.rename b ↔ a = b := by
  refine ⟨fun same => ?_, congrArg _⟩
  by_cases empty : a = []
  · have empty' : b = [] := r.rename_eq_nil_iff.mp (same.symm.trans (r.rename_eq_nil_iff.mpr empty))
    exact empty.trans empty'.symm
  · have filled : b ≠ [] := fun empty' =>
      empty (r.rename_eq_nil_iff.mp (same.trans (r.rename_eq_nil_iff.mpr empty')))
    rw [rename_name r ⟨a, empty⟩, rename_name r ⟨b, filled⟩] at same
    exact congrArg Subtype.val (r.injective (Subtype.ext same))

theorem rename_beq : (r.rename a == r.rename b) = (a == b) := by
  rw [Bool.eq_iff_iff, beq_iff_eq, beq_iff_eq, rename_inj]

theorem isEmpty_rename : (r.rename a).isEmpty = a.isEmpty := by
  rw [Bool.eq_iff_iff, List.isEmpty_iff, List.isEmpty_iff, rename_eq_nil_iff]

end Renaming

namespace Symbols

variable (r : Renaming)

/-- The symbols with the names renamed in their places. -/
def renamed (symbols : Symbols) : Symbols := ⟨symbols.entries.map (Prod.map r.rename id)⟩

theorem put_renamed (name : Text) (tracked : Bool) (entries : List (Text × Bool)) :
    put (r.rename name) tracked (entries.map (Prod.map r.rename id)) =
      (put name tracked entries).map (Prod.map r.rename id) := by
  induction entries with
  | nil => rfl
  | cons entry more ih =>
    obtain ⟨other, flag⟩ := entry
    simp only [put, List.map_cons, Prod.map_apply, id_eq, r.rename_inj]
    split
    · rfl
    · rw [ih, List.map_cons, Prod.map_apply, id_eq]

variable (symbols : Symbols)

theorem bind_renamed (name : Text) (tracked : Bool) :
    (symbols.renamed r).bind (r.rename name) tracked = (symbols.bind name tracked).renamed r :=
  congrArg Symbols.mk (put_renamed r name tracked symbols.entries)

theorem isTracked_renamed (name : Text) :
    (symbols.renamed r).isTracked (r.rename name) = symbols.isTracked name := by
  have same : ((fun entry : Text × Bool => entry.1 == r.rename name) ∘ Prod.map r.rename id) =
      fun entry => entry.1 == name :=
    funext fun entry => r.rename_beq
  rw [isTracked, isTracked, renamed, List.find?_map, same, Option.map_map]
  rfl

theorem trackedNames_renamed :
    (symbols.renamed r).trackedNames = symbols.trackedNames.map r.rename := by
  rw [trackedNames, trackedNames, renamed, List.filter_map, List.map_map, List.map_map]
  rfl

theorem hasTracked_renamed : (symbols.renamed r).hasTracked = symbols.hasTracked := by
  rw [hasTracked, hasTracked, renamed, List.any_map]
  rfl

end Symbols

namespace Script

variable (r : Renaming)

def ImportedName.renamed (name : ImportedName) : ImportedName := { name with bound := r.rename name.bound }

def Import.renamed (declaration : Import) : Import :=
  { declaration with names := declaration.names.map (ImportedName.renamed r) }

def Member.renamed (member : Member) : Member := { member with object := member.object.map r.rename }

/-- The outline with all bound names and objects renamed. The source text stays, and so do all spans. -/
def Outline.renamed (outline : Outline) : Outline :=
  { outline with
    imports := outline.imports.map (Import.renamed r)
    members := outline.members.map (Member.renamed r) }

end Script

def ImportBinding.renamed (r : Renaming) (binding : ImportBinding) : ImportBinding :=
  { binding with bound := r.rename binding.bound }

theorem Script.Outline.bindings_renamed (r : Renaming) (outline : Outline) :
    (outline.renamed r).bindings = outline.bindings.map (ImportBinding.renamed r) := by
  simp only [bindings, renamed, Import.renamed, List.flatMap_map, List.map_map, List.map_flatMap]
  rfl

namespace Migration

variable (migration : Migration) (r : Renaming)

theorem symbols_renamed (outline : Outline) :
    migration.symbols (outline.renamed r) = (migration.symbols outline).renamed r := by
  have step (symbols : Symbols) (binding : ImportBinding) :
      (symbols.renamed r).bind (r.rename binding.bound) (migration.tracks binding) =
        (symbols.bind binding.bound (migration.tracks binding)).renamed r :=
    symbols.bind_renamed r binding.bound (migration.tracks binding)
  rw [symbols, outline.bindings_renamed, List.foldl_map]
  exact @List.foldl_hom _ _ _ (Symbols.renamed r) _ _ outline.bindings .none step

theorem isTrackedMember_renamed (symbols : Symbols) (member : Member) :
    isTrackedMember (symbols.renamed r) (member.renamed r) = isTrackedMember symbols member := by
  obtain ⟨object, property, span, place⟩ := member
  cases object with
  | none => rfl
  | some name =>
    simp only [isTrackedMember, Member.renamed, Option.map_some, r.isEmpty_rename, symbols.isTracked_renamed]

theorem slotMatch?_renamed (member : Member) : migration.slotMatch? (member.renamed r) =
    (migration.slotMatch? member).map fun found => { found with member := found.member.renamed r } := by
  obtain ⟨object, property, span, place⟩ := member
  cases place with
  | inside parent => rfl
  | slot chunks index =>
    simp only [slotMatch?, Member.renamed]
    cases chunks[index]? with
    | none => rfl
    | some preceding =>
      simp only [Option.bind_eq_bind, Option.bind_some]
      split
      · cases property with
        | none => rfl
        | some key =>
          simp only [Option.bind_some]
          cases migration.table.withKey? key <;> rfl
      · rfl

theorem editAt?_renamed (symbols : Symbols) (source : Text) (member : Member) :
    migration.editAt? (symbols.renamed r) source (member.renamed r) =
      migration.editAt? symbols source member := by
  rw [editAt?, editAt?, isTrackedMember_renamed, slotMatch?_renamed, Option.bind_map]
  rfl

/-- Whatever the imports and the objects of members are called in a script, as long as different names stay different,
the edits of its slots are the same, and so is what becomes of the script. Its tracked names are the renamed ones in
their order. -/
theorem slotEdits_renamed (outline : Outline) :
    let symbols := migration.symbols outline
    let renamed := migration.symbols (outline.renamed r)
    migration.slotEdits (outline.renamed r) renamed = migration.slotEdits outline symbols ∧
      renamed.trackedNames = symbols.trackedNames.map r.rename ∧
      ∀ options, migration.editOutline (outline.renamed r) options = migration.editOutline outline options := by
  intro symbols renamed
  have anew : renamed = symbols.renamed r := migration.symbols_renamed r outline
  have slots : migration.slotEdits (outline.renamed r) renamed = migration.slotEdits outline symbols := by
    rw [anew, slotEdits_eq_filterMap, slotEdits_eq_filterMap, Outline.renamed, List.filterMap_map]
    exact congrArg (List.filterMap · outline.members)
      (funext (migration.editAt?_renamed r symbols outline.source))
  refine ⟨slots, anew ▸ symbols.trackedNames_renamed r, fun options => ?_⟩
  have edits : migration.scriptEdits (outline.renamed r) options = migration.scriptEdits outline options := by
    have same : renamed.hasTracked = symbols.hasTracked := anew ▸ symbols.hasTracked_renamed r
    change (if renamed.hasTracked then migration.slotEdits (outline.renamed r) renamed else []) ++
      migration.literalEdits outline options = _
    rw [same, slots]
    rfl
  rw [editOutline, editOutline, edits]
  rfl

end Migration

end ClassMigration
