import Mathlib.Data.List.Induction
import ClassMigration.Proofs.KeyedLists
import ClassMigration.Symbols

/-! What the symbols of a script say of a name. A later import of a name replaces an earlier one, so the
last import that binds the name decides, while the names keep the order in which they were first bound. -/
namespace ClassMigration

namespace Symbols

variable {name bound : Text} {tracked : Bool}

theorem find?_put (entries : List (Text × Bool)) :
    (put bound tracked entries).find? (·.1 == name) =
      if bound = name then some (name, tracked) else entries.find? (·.1 == name) := by
  induction entries with
  | nil => by_cases same : bound = name <;> simp [put, same]
  | cons entry more ih =>
    obtain ⟨other, flag⟩ := entry
    rw [put]
    by_cases taken : other = bound
    · rw [if_pos taken, taken]
      by_cases same : bound = name <;> simp [same]
    · rw [if_neg taken]
      by_cases same : other = name
      · have apart : bound ≠ name := fun equal => taken (same.trans equal.symm)
        simp [same, apart]
      · simp [same, ih]

theorem names_put (entries : List (Text × Bool)) : (put bound tracked entries).map Prod.fst =
    if bound ∈ entries.map Prod.fst then entries.map Prod.fst else entries.map Prod.fst ++ [bound] := by
  induction entries with
  | nil => simp [put]
  | cons entry more ih =>
    obtain ⟨other, flag⟩ := entry
    rw [put]
    by_cases taken : other = bound
    · simp [taken]
    · by_cases later : bound ∈ more.map Prod.fst
      · simp [taken, later, ih]
      · simp [taken, Ne.symm taken, later, ih]

theorem hasTracked_of_isTracked {symbols : Symbols} (known : symbols.isTracked name = true) :
    symbols.hasTracked = true := by
  rw [isTracked] at known
  cases found : symbols.entries.find? (·.1 == name) with
  | none => simp [found] at known
  | some entry =>
    have flagged : entry.2 = true := by simpa [found] using known
    exact List.any_eq_true.mpr ⟨entry, List.mem_of_find?_eq_some found, flagged⟩

/-- What can be asked of symbols. -/
inductive Call where
  | bind (name : Text) (tracked : Bool)
  | isTracked (name : Text)
  | trackedNames
  | hasTracked
  deriving DecidableEq, Repr

def Call.binding? : Call → Option (Text × Bool)
  | bind name tracked => some (name, tracked)
  | isTracked _ | trackedNames | hasTracked => .none

/-- The symbols behind a call. A query leaves them as they are. -/
def behind (symbols : Symbols) : Call → Symbols
  | .bind name tracked => symbols.bind name tracked
  | .isTracked _ | .trackedNames | .hasTracked => symbols

/-- The symbols behind calls that are made one after another. -/
def afterCalls (symbols : Symbols) (calls : List Call) : Symbols := calls.foldl behind symbols

/-- The flag of the last binding of a name. -/
def lastFlag? (bindings : List (Text × Bool)) (name : Text) : Option Bool :=
  (bindings.reverse.find? (·.1 == name)).map Prod.snd

theorem lastFlag?_concat (bindings : List (Text × Bool)) : lastFlag? (bindings ++ [(bound, tracked)]) name =
    if bound = name then some tracked else lastFlag? bindings name := by
  by_cases same : bound = name <;> simp [lastFlag?, same]

theorem lastFlag?_isSome_iff {bindings : List (Text × Bool)} :
    (lastFlag? bindings name).isSome = true ↔ name ∈ bindings.map Prod.fst := by
  simp [lastFlag?]

/-- The symbols hold what was bound: each name with the flag of its last binding, in the order of the first ones. -/
structure Records (bindings : List (Text × Bool)) (symbols : Symbols) : Prop where
  flags : ∀ name, (symbols.entries.find? (·.1 == name)).map Prod.snd = lastFlag? bindings name
  order : (symbols.entries.map Prod.fst).Pairwise fun a b =>
    (bindings.map Prod.fst).idxOf a < (bindings.map Prod.fst).idxOf b

namespace Records

variable {bindings : List (Text × Bool)} {symbols : Symbols}

theorem none : Records [] none := ⟨fun _ => rfl, .nil⟩

theorem mem_names_iff (records : Records bindings symbols) :
    name ∈ symbols.entries.map Prod.fst ↔ name ∈ bindings.map Prod.fst := by
  have flagged : name ∈ symbols.entries.map Prod.fst ↔ (lastFlag? bindings name).isSome := by
    rw [← records.flags]
    simp
  exact flagged.trans lastFlag?_isSome_iff

theorem bind (records : Records bindings symbols) (bound : Text) (tracked : Bool) :
    Records (bindings ++ [(bound, tracked)]) (symbols.bind bound tracked) where
  flags := by
    intro name
    rw [Symbols.bind, find?_put, lastFlag?_concat, ← records.flags]
    split <;> rfl
  order := by
    have earlier {name : Text} (mem : name ∈ symbols.entries.map Prod.fst) :
        ((bindings ++ [(bound, tracked)]).map Prod.fst).idxOf name = (bindings.map Prod.fst).idxOf name := by
      rw [List.map_append]
      exact List.idxOf_append_of_mem (records.mem_names_iff.mp mem)
    have kept : (symbols.entries.map Prod.fst).Pairwise fun a b =>
        ((bindings ++ [(bound, tracked)]).map Prod.fst).idxOf a <
          ((bindings ++ [(bound, tracked)]).map Prod.fst).idxOf b := by
      refine records.order.imp_of_mem fun {a b} mem mem' before => ?_
      rwa [earlier mem, earlier mem']
    rw [Symbols.bind, names_put]
    split
    case isTrue => exact kept
    case isFalse new =>
      refine List.pairwise_append.mpr ⟨kept, List.pairwise_singleton _ _, fun a mem b isBound => ?_⟩
      -- the new name stands behind all bindings so far
      rw [List.mem_singleton.mp isBound, earlier mem, List.map_append,
        List.idxOf_append_of_notMem (mt records.mem_names_iff.mpr new)]
      exact Nat.lt_add_right _ (List.idxOf_lt_length_of_mem (records.mem_names_iff.mp mem))

/-- After any calls the symbols hold what was bound, whatever was asked between. -/
theorem afterCalls (calls : List Call) : Records (calls.filterMap Call.binding?) (Symbols.none.afterCalls calls) := by
  induction calls using List.reverseRecOn with
  | nil => exact .none
  | append_singleton earlier call ih =>
    rw [Symbols.afterCalls, List.foldl_append, List.foldl_cons, List.foldl_nil, List.filterMap_append]
    cases call with
    | bind name tracked => exact ih.bind name tracked
    | isTracked | trackedNames | hasTracked =>
      rwa [List.filterMap_cons, Call.binding?, List.filterMap_nil, List.append_nil]

variable (records : Records bindings symbols)
include records

theorem isTracked_eq (name : Text) : symbols.isTracked name = (lastFlag? bindings name).getD false := by
  rw [isTracked, records.flags]

theorem names_nodup : (symbols.entries.map Prod.fst).Nodup :=
  records.order.imp fun {a b} before same => by
    rw [same] at before
    exact Nat.lt_irrefl _ before

theorem trackedNames_order : symbols.trackedNames.Pairwise fun a b =>
    (bindings.map Prod.fst).idxOf a < (bindings.map Prod.fst).idxOf b :=
  records.order.sublist (List.filter_sublist.map _)

theorem mem_trackedNames_iff : name ∈ symbols.trackedNames ↔ lastFlag? bindings name = some true := by
  calc name ∈ symbols.trackedNames
    _ ↔ (name, true) ∈ symbols.entries := by simp [trackedNames]
    _ ↔ symbols.entries.find? (·.1 == name) = some (name, true) := by
      rw [find?_eq_some_iff_of_nodup records.names_nodup, and_iff_left rfl]
    _ ↔ lastFlag? bindings name = some true := by
      rw [← records.flags]
      cases found : symbols.entries.find? (·.1 == name) with
      | none => simp
      | some entry =>
        have named : entry.1 = name := by simpa using List.find?_some found
        simp [Prod.ext_iff, named]

end Records

end Symbols

namespace Script.Outline

/-- The import that a name stands for in the scope of the whole script, the last that binds it. -/
def bindingOf? (outline : Outline) (name : Text) : Option ImportBinding :=
  outline.bindings.reverse.find? (·.bound == name)

end Script.Outline

namespace Migration

variable (migration : Migration) {name : Text}

theorem symbols_eq_afterCalls (outline : Script.Outline) : migration.symbols outline =
    Symbols.none.afterCalls (outline.bindings.map fun binding => .bind binding.bound (migration.tracks binding)) := by
  rw [symbols, Symbols.afterCalls, List.foldl_map]
  rfl

theorem isTracked_symbols_iff {outline : Script.Outline} :
    (migration.symbols outline).isTracked name = true ↔
      ∃ binding, outline.bindingOf? name = some binding ∧ migration.tracks binding = true := by
  have bound : (outline.bindings.map fun binding =>
      Symbols.Call.bind binding.bound (migration.tracks binding)).filterMap Symbols.Call.binding? =
      outline.bindings.map fun binding => (binding.bound, migration.tracks binding) := by
    rw [List.filterMap_map, ← List.filterMap_eq_map]
    rfl
  have last : Symbols.lastFlag? (outline.bindings.map fun binding => (binding.bound, migration.tracks binding)) name =
      (outline.bindingOf? name).map migration.tracks := by
    rw [Symbols.lastFlag?, ← List.map_reverse, List.find?_map, Option.map_map]
    rfl
  rw [symbols_eq_afterCalls, (Symbols.Records.afterCalls _).isTracked_eq, bound, last]
  cases outline.bindingOf? name <;> simp

/-- After any calls a name has the flag of its last binding, or none where it was never bound. The tracked names are
those whose last flag says so, each once, in the order in which the names were first bound. In a script a name is
therefore tracked if and only if the last named import that binds it imports the classes object from one of its
modules. -/
theorem last_binding_decides (calls : List Symbols.Call) :
    let symbols := Symbols.none.afterCalls calls
    let bindings := calls.filterMap Symbols.Call.binding?
    (∀ name, symbols.isTracked name = (Symbols.lastFlag? bindings name).getD false) ∧
      symbols.trackedNames.Nodup ∧
      (∀ name, name ∈ symbols.trackedNames ↔ Symbols.lastFlag? bindings name = some true) ∧
      symbols.trackedNames.Pairwise
        (fun a b => (bindings.map Prod.fst).idxOf a < (bindings.map Prod.fst).idxOf b) ∧
      (symbols.hasTracked = true ↔ symbols.trackedNames ≠ []) ∧
      ∀ (migration : Migration) (outline : Script.Outline) (name : Text),
        (migration.symbols outline).isTracked name = true ↔ ∃ binding, outline.bindingOf? name = some binding ∧
          binding.imported = migration.classes ∧ binding.module ∈ migration.modules := by
  intro symbols bindings
  have records : Symbols.Records bindings symbols := .afterCalls calls
  refine ⟨records.isTracked_eq, ?_, fun name => records.mem_trackedNames_iff, records.trackedNames_order,
    symbols.hasTracked_iff, ?_⟩
  · exact records.names_nodup.sublist (List.filter_sublist.map _)
  · intro migration outline name
    rw [isTracked_symbols_iff]
    refine exists_congr fun binding => and_congr_right fun _ => ?_
    simp [tracks, and_comm]

/-- A name that is bound anew keeps its place, and what is asked between changes nothing. -/
example :
    (Symbols.none.afterCalls [.bind [.char 'a'] true, .bind [.char 'b'] false, .bind [.char 'c'] true, .hasTracked,
      .bind [.char 'a'] false, .isTracked [.char 'a'], .bind [.char 'b'] true,
      .bind [.char 'a'] true]).trackedNames = [[.char 'a'], [.char 'b'], [.char 'c']] := rfl

end Migration

end ClassMigration
