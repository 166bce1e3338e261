import ClassMigration.Proofs.DirectorySearch
import ClassMigration.Proofs.PlainPaths

/-! What a search finds, whatever the pattern. Its wildcards stand for names in directories, so from a base without
wildcards a pattern of plain steps finds paths that are spelled from the base by plain names, and so are all source
files of paths that are spelled from there. -/
namespace ClassMigration

namespace Path

/-- A base needs no slash at its end, and no wildcard can make it another. -/
structure IsBase (base : Text) : Prop where
  cut : withoutEndSlashes base = base
  single : Glob.isPattern base = false

instance (base : Text) : Decidable (IsBase base) :=
  decidable_of_iff (withoutEndSlashes base = base ∧ Glob.isPattern base = false)
    ⟨fun ⟨cut, single⟩ => ⟨cut, single⟩, fun ⟨cut, single⟩ => ⟨cut, single⟩⟩

/-- The steps of a directory's path, without the empty one behind a slash at the end. -/
def stem (directory : Text) : List Text := (steps (join directory [])).dropLast

variable {base directory : Text} {names : List Text}

theorem exists_stem (filled : directory ≠ []) :
    ∃ front, join directory [] = front ++ [.char '/'] ∧ stem directory = steps front := by
  obtain ⟨front, whole, -⟩ := join_nil_eq filled
  refine ⟨front, whole, ?_⟩
  rw [stem, whole, steps_slash]
  exact List.dropLast_concat

theorem steps_along (some : names ≠ []) (all : ∀ name ∈ names, Plain name) :
    steps (along directory names) = stem directory ++ names := by
  rw [← below_eq_along some all]
  by_cases filled : directory = []
  · subst filled
    rw [below, join_eq_append (startsWith_joined all)]
    exact steps_joined some all
  · obtain ⟨front, whole, same⟩ := exists_stem filled
    rw [below_eq_append whole all, steps_slash, steps_joined some all, same]

theorem exists_along_concat (some : names ≠ []) (all : ∀ name ∈ names, Plain name) :
    ∃ front name, Plain name ∧ along directory names = front ++ name := by
  obtain ⟨parents, name, rfl⟩ : ∃ parents name, names = parents ++ [name] :=
    ⟨_, _, (List.dropLast_concat_getLast some).symm⟩
  have own : Plain name := all name (by simp)
  refine ⟨join (along directory parents) [], name, own, ?_⟩
  rw [along_append]
  exact join_eq_append own.startsWith_self

theorem withoutEndSlashes_along (some : names ≠ []) (all : ∀ name ∈ names, Plain name) :
    withoutEndSlashes (along directory names ++ [.char '/']) = along directory names := by
  obtain ⟨front, name, own, whole⟩ := exists_along_concat some all
  rw [whole, withoutEndSlashes_slash (by simp [own.filled]) (own.endsWith front)]
  obtain ⟨opening, c, rfl, other⟩ := own.exists_concat
  rw [← List.append_assoc, withoutEndSlashes_concat other]

theorem IsBase.withoutEndSlashes_join (isBase : IsBase base) (filled : base ≠ []) :
    withoutEndSlashes (join base []) = base := by
  obtain ⟨front, whole, ⟨rfl, ends⟩ | rfl⟩ := join_nil_eq filled
  · rw [whole, withoutEndSlashes_slash filled ends, isBase.cut]
  · rw [whole, isBase.cut]

theorem IsBase.plain_stem (isBase : IsBase base) : ∀ step ∈ stem base, (!Glob.isPattern step) = true := by
  intro step mem
  have slash : Glob.isPattern (join base []) = false := by
    by_cases filled : base = []
    · subst filled
      rfl
    · obtain ⟨front, whole, ⟨rfl, -⟩ | rfl⟩ := join_nil_eq filled
      · rw [whole]
        simpa [Glob.isPattern] using isBase.single
      · rw [whole]
        exact isBase.single
  rw [Glob.isPattern_of_mem_steps slash (List.dropLast_subset _ mem)]
  rfl

end Path

theorem FileNode.Each.directory? {tree : FileTree} {holds : Text → Prop} {path : Text} {node : FileNode}
    (each : tree.root.Each holds) (found : tree.directory? path = some node) : node.Each holds := by
  obtain ⟨location, here⟩ : ∃ location, tree.root.at? location = some node := by
    rw [FileTree.directory?] at found
    split at found
    · exact ⟨_, found⟩
    · obtain ⟨location, -, here⟩ := Option.bind_eq_some_iff.mp found
      exact ⟨location, here⟩
  exact (each.at? here).2

namespace Glob

variable {tree : FileTree} {base directory path name text : Text} {names places texts : List Text} {steps : List Step}
  {step : Step} {goesOn : Bool}

/-- A pattern behind a base is searched from where its first wildcard comes. -/
theorem ofText_along (isBase : Path.IsBase base) (some : names ≠ []) (all : ∀ name ∈ names, Path.Plain name) :
    PathPattern.ofText (Path.along base names) =
      ⟨Path.along base (names.takeWhile fun name => !isPattern name),
        Step.ofTexts (names.dropWhile fun name => !isPattern name)⟩ := by
  have single := isBase.plain_stem
  rw [PathPattern.ofText, Path.steps_along some all, List.takeWhile_append_of_pos single,
    List.dropWhile_append_of_pos single, PathPattern.mk.injEq, and_iff_left rfl]
  have lead : ∀ name ∈ names.takeWhile fun name => !isPattern name, Path.Plain name :=
    fun name mem => all name ((List.takeWhile_prefix _).subset mem)
  generalize names.takeWhile (fun name => !isPattern name) = front at lead
  by_cases first : front = []
  · subst first
    by_cases filled : base = []
    · subst filled
      rfl
    · obtain ⟨opening, whole, same⟩ := Path.exists_stem filled
      have filledStem : Path.steps opening ≠ [] := Text.pieces_ne_nil '/' opening
      have back : Text.joined [.char '/'] (Path.steps opening) = opening := Text.joined_pieces '/' opening
      rw [List.append_nil, same, if_neg filledStem, back, ← whole, isBase.withoutEndSlashes_join filled]
      rfl
  · have back : Text.joined [.char '/'] (Path.steps (Path.along base front)) = Path.along base front :=
      Text.joined_pieces '/' _
    rw [if_neg (by simp [first]), ← Path.steps_along first lead, back, Path.withoutEndSlashes_along first lead]

theorem eq_of_ofText_eq_name (same : Step.ofText name = .name text) : name = text := by
  rw [Step.ofText] at same
  split at same
  · cases same
  · split at same
    · cases same
    · exact Step.name.inj same

theorem mem_of_name_mem_ofTexts (mem : .name text ∈ Step.ofTexts texts) : text ∈ texts := by
  fun_induction Step.ofTexts texts with
  | case1 => cases mem
  | case2 name =>
    have same := List.mem_singleton.mp mem
    split at same
    · cases same
    · exact List.mem_singleton.mpr (eq_of_ofText_eq_name same.symm).symm
  | case3 more _ ih => exact List.mem_cons_of_mem _ (ih mem)
  | case4 name more _ _ ih =>
    rcases List.mem_cons.mp mem with same | mem
    · exact eq_of_ofText_eq_name same.symm ▸ List.mem_cons_self
    · exact List.mem_cons_of_mem _ (ih mem)

theorem exists_names_of_mem_found (each : tree.root.Each Path.Plain)
    (own : ∀ text, step = .name text → Path.Plain text) (mem : path ∈ step.found tree directory goesOn) :
    ∃ names, (∀ name ∈ names, Path.Plain name) ∧ path = Text.joined [.char '/'] names := by
  have here : ∃ names, (∀ name ∈ names, Path.Plain name) ∧ [] = Text.joined [.char '/'] names := ⟨[], by simp, rfl⟩
  have single {name : Text} (plain : Path.Plain name) :
      ∃ names, (∀ name ∈ names, Path.Plain name) ∧ name = Text.joined [.char '/'] names :=
    ⟨[name], by simpa using plain, rfl⟩
  cases step with
  | name text =>
    rw [Step.found] at mem
    split at mem
    · exact List.mem_singleton.mp mem ▸ single (own text rfl)
    · cases mem
  | pattern text =>
    obtain ⟨entry, isEntry, rfl⟩ := List.mem_map.mp mem
    have isEntry := (List.mem_filter.mp isEntry).1
    cases isNode : tree.directory? directory with
    | none => simp [isNode] at isEntry
    | some node =>
      rw [isNode] at isEntry
      exact single ((each.directory? isNode).entries entry isEntry).1
  | anywhere =>
    rcases List.mem_append.mp mem with mem | mem
    · split at mem
      · exact List.mem_singleton.mp mem ▸ here
      · cases mem
    · cases isNode : tree.directory? directory with
      | none => simp [isNode] at mem
      | some node =>
        rw [isNode] at mem
        obtain ⟨names, -, all, rfl⟩ := (each.directory? isNode).exists_names mem
        exact ⟨names, fun name mem => (all name mem).1, rfl⟩
  | directory =>
    rw [Step.found] at mem
    split at mem
    · exact List.mem_singleton.mp mem ▸ here
    · cases mem

theorem spelledFrom_of_mem_follow (each : tree.root.Each Path.Plain)
    (own : ∀ text, .name text ∈ steps → Path.Plain text) (spelled : ∀ place ∈ places, Path.SpelledFrom base place)
    (mem : path ∈ follow tree steps places) : Path.SpelledFrom base path := by
  induction steps generalizing places with
  | nil => exact spelled path mem
  | cons step more ih =>
    refine ih (fun text later => own text (List.mem_cons_of_mem step later)) ?_ mem
    intro place isPlace
    obtain ⟨before, isBefore, found⟩ := List.mem_flatMap.mp isPlace
    obtain ⟨inner, isInner, rfl⟩ := List.mem_map.mp found
    obtain ⟨names, all, rfl⟩ :=
      exists_names_of_mem_found each (fun text same => own text (same ▸ List.mem_cons_self)) isInner
    exact (spelled before isBefore).below all

theorem spelledFrom_of_mem_search (isBase : Path.IsBase base) (each : tree.root.Each Path.Plain) (some : names ≠ [])
    (all : ∀ name ∈ names, Path.Plain name) (mem : path ∈ search tree (Path.along base names)) :
    Path.SpelledFrom base path := by
  rw [search] at mem
  split at mem
  case isTrue =>
    simp only [ofText_along isBase some all] at mem
    apply spelledFrom_of_mem_follow each ?_ ?_ mem
    · intro text isStep
      exact all text ((List.dropWhile_suffix _).subset (mem_of_name_mem_ofTexts isStep))
    · intro place isPlace
      rw [List.mem_singleton.mp isPlace]
      exact ⟨_, fun name mem => all name ((List.takeWhile_prefix _).subset mem), .inl rfl⟩
  case isFalse =>
    split at mem
    · exact List.mem_singleton.mp mem ▸ ⟨names, all, .inl rfl⟩
    · cases mem

end Glob

namespace FileTree

variable {tree : FileTree} {base file path pattern : Text} {extensions : List Text}

theorem isDirectory_of_mem_expand (mem : file ∈ tree.expand pattern extensions path) :
    tree.isDirectory file = false := by
  rw [expand] at mem
  split at mem
  case isFalse other => exact List.mem_singleton.mp mem ▸ Bool.eq_false_iff.mpr other
  case isTrue =>
    rw [filesIn, Text.mem_sorted, List.mem_filter, Bool.and_eq_true, Bool.and_eq_true] at mem
    obtain ⟨-, ⟨isFile, -⟩, -⟩ := mem
    rw [FileTree.isFile] at isFile
    rw [isDirectory]
    cases isNode : tree.node? file with
    | none => rfl
    | some node => simpa [isNode] using isFile

theorem spelledFrom_of_mem_expand (isBase : Path.IsBase base) (each : tree.root.Each Path.Plain)
    (plain : ∀ step ∈ Path.steps pattern, Path.Plain step) (spelled : Path.SpelledFrom base path)
    (mem : file ∈ tree.expand pattern extensions path) : Path.SpelledFrom base file := by
  rw [expand] at mem
  split at mem
  case isFalse => exact List.mem_singleton.mp mem ▸ spelled
  case isTrue =>
    rw [filesIn, Text.mem_sorted, List.mem_filter] at mem
    obtain ⟨names, some, all, whole⟩ := spelled.exists_along (Text.pieces_ne_nil '/' pattern) plain
    rw [Path.below, Text.joined_pieces] at whole
    rw [whole] at mem
    exact Glob.spelledFrom_of_mem_search isBase each some all mem.1

end FileTree

end ClassMigration
