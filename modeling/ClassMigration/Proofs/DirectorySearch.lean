import ClassMigration.Proofs.Paths
import ClassMigration.SourceFiles

/-! The files that a directory stands for. Where the directory's path has no wildcard, they are the source files
below it that no hidden name and no installed package leads to, each once. A wildcard in the path is read as
one, and other directories may be searched instead. -/
namespace ClassMigration

namespace FileNode

/-- Something holds of every name in the node. -/
inductive Each (holds : Text → Prop) : FileNode → Prop
  | file {bytes : Bytes} {locked : Bool} : Each holds (file bytes locked)
  | directory {entries : List (Text × FileNode)} : (∀ entry ∈ entries, holds entry.1) →
    (∀ entry ∈ entries, Each holds entry.2) → Each holds (directory entries)

/-- Every name in the node is that of a step. -/
abbrev Named : FileNode → Prop := Each fun name => name ≠ [] ∧ .char '/' ∉ name

variable {node inner : FileNode} {name path : Text} {names : Location} {wanted : Text → FileNode → Bool}
  {holds : Text → Prop}

theorem mem_entries_of_child? (found : node.child? name = some inner) : (name, inner) ∈ node.entries := by
  obtain ⟨entry, isEntry, rfl⟩ := Option.map_eq_some_iff.mp found
  have same : entry.1 = name := by simpa using List.find?_some isEntry
  rw [← same]
  exact List.mem_of_find?_eq_some isEntry

theorem at?_cons_eq_some : node.at? (name :: names) = some inner ↔
    ∃ child, node.child? name = some child ∧ child.at? names = some inner := Option.bind_eq_some_iff

@[simp] theorem at?_singleton (node : FileNode) (name : Text) : node.at? [name] = node.child? name := by
  cases found : node.child? name <;> simp [at?, found]

theorem isSome_child?_of_mem {entry : Text × FileNode} (mem : entry ∈ node.entries) :
    (node.child? entry.1).isSome := by
  rw [child?, Option.isSome_map, List.find?_isSome]
  exact ⟨entry, mem, by simp⟩

theorem isDirectory_of_child? (found : node.child? name = some inner) : node.isDirectory = true := by
  cases node with
  | directory entries => rfl
  | file => cases found

theorem isDirectory_of_at?_cons (found : node.at? (name :: names) = some inner) : node.isDirectory = true := by
  obtain ⟨child, first, -⟩ := at?_cons_eq_some.mp found
  exact isDirectory_of_child? first

theorem Each.entries (each : node.Each holds) : ∀ entry ∈ node.entries, holds entry.1 ∧ entry.2.Each holds := by
  cases each with
  | file => exact fun _ mem => absurd mem List.not_mem_nil
  | directory names inner => exact fun entry mem => ⟨names entry mem, inner entry mem⟩

theorem Each.at? (each : node.Each holds) (found : node.at? names = some inner) :
    (∀ name ∈ names, holds name) ∧ inner.Each holds := by
  induction names generalizing node with
  | nil =>
    cases found
    exact ⟨by simp, each⟩
  | cons name more ih =>
    obtain ⟨child, first, found⟩ := at?_cons_eq_some.mp found
    obtain ⟨own, further⟩ := each.entries _ (mem_entries_of_child? first)
    obtain ⟨others, last⟩ := ih further found
    exact ⟨List.forall_mem_cons.mpr ⟨own, others⟩, last⟩

theorem mem_descendants {entries : List (Text × FileNode)} :
    path ∈ (directory entries).descendants wanted ↔ ∃ entry ∈ entries, wanted entry.1 entry.2 = true ∧
      (path = entry.1 ∨ ∃ rest ∈ entry.2.descendants wanted, path = entry.1 ++ .char '/' :: rest) := by
  rw [descendants]
  induction entries with
  | nil => simp [descendantsOf]
  | cons entry more ih =>
    obtain ⟨name, node⟩ := entry
    rw [descendantsOf, List.mem_append, ih]
    simp only [List.mem_cons, exists_eq_or_imp]
    by_cases enters : wanted name node = true
    · have same (rest : Text) : name ++ .char '/' :: rest = path ↔ path = name ++ .char '/' :: rest := eq_comm
      simp [enters, same]
    · simp [enters]

/-- Visible names that lead through directories to a directory are searched. -/
theorem joined_mem_descendants (filled : names ≠ []) (visible : ∀ name ∈ names, Path.isHidden name = false)
    (found : node.at? names = some inner) (directory : inner.isDirectory = true) :
    Text.joined [.char '/'] names ∈ node.descendants (Glob.isEntered true) := by
  induction names generalizing node with
  | nil => exact absurd rfl filled
  | cons name more ih =>
    obtain ⟨child, first, further⟩ := at?_cons_eq_some.mp found
    obtain ⟨own, visible⟩ := List.forall_mem_cons.mp visible
    have isEntry := mem_entries_of_child? first
    cases node with
    | file => cases isEntry
    | directory entries =>
      refine mem_descendants.mpr ⟨(name, child), isEntry, ?_⟩
      cases more with
      | nil =>
        cases further
        exact ⟨by simp [Glob.isEntered, own, directory], .inl rfl⟩
      | cons next more =>
        have entered := isDirectory_of_at?_cons further
        refine ⟨by simp [Glob.isEntered, own, entered], .inr ⟨_, ih (List.cons_ne_nil _ _) visible further, ?_⟩⟩
        simp [Text.joined_cons (List.cons_ne_nil next more)]

theorem Each.exists_names (each : node.Each holds) (mem : path ∈ node.descendants wanted) :
    ∃ names, names ≠ [] ∧ (∀ name ∈ names, holds name ∧ ∃ inner, wanted name inner = true) ∧
      path = Text.joined [.char '/'] names := by
  induction each generalizing path with
  | file => simp [descendants] at mem
  | directory own inner ih =>
    obtain ⟨entry, isEntry, enters, inside⟩ := mem_descendants.mp mem
    rcases inside with rfl | ⟨rest, further, rfl⟩
    · exact ⟨[entry.1], by simp, by simpa using ⟨own entry isEntry, _, enters⟩, rfl⟩
    · obtain ⟨names, some, all, rfl⟩ := ih entry isEntry further
      refine ⟨entry.1 :: names, by simp, ?_, by simp [Text.joined_cons some]⟩
      exact List.forall_mem_cons.mpr ⟨⟨own entry isEntry, _, enters⟩, all⟩

/-- What is searched are visible names that lead on. -/
theorem exists_names_of_mem_descendants (named : node.Named)
    (mem : path ∈ node.descendants (Glob.isEntered true)) :
    ∃ names, names ≠ [] ∧ (∀ name ∈ names, Path.Leads name) ∧ path = Text.joined [.char '/'] names := by
  obtain ⟨names, some, all, whole⟩ := named.exists_names mem
  refine ⟨names, some, fun name mem => ?_, whole⟩
  obtain ⟨⟨filled, whole⟩, inner, enters⟩ := all name mem
  exact ⟨filled, whole, by simpa using (Bool.and_eq_true_iff.mp enters).1⟩

end FileNode

namespace Glob

variable {tree : FileTree} {directory text name path : Text} {location : Location}

theorem anyEnd_of_nil {test : Text → Bool} (passes : test [] = true) (text : Text) : anyEnd test text = true := by
  induction text with
  | nil => exact passes
  | cons c rest ih => rw [anyEnd, ih, Bool.or_true]

theorem matchesName_star (name : Text) : matchesName [.char '*'] name = !Path.isHidden name := by
  have every : matchesPieces (piecesFrom 0 [.char '*']) name = true := anyEnd_of_nil rfl name
  rw [matchesName, every, Bool.and_true]
  rfl

theorem isPattern_of_mem_steps {step : Text} (plain : isPattern text = false) (mem : step ∈ Path.steps text) :
    isPattern step = false := by
  rw [isPattern, List.any_eq_false] at plain ⊢
  exact fun c own => plain c (Text.mem_of_mem_pieces mem own)

theorem search_slash {front : Text} (plain : isPattern front = false) :
    search tree (front ++ .char '/' :: anyFile) =
      follow tree [.anywhere, .pattern [.char '*']] [Path.withoutEndSlashes (front ++ [.char '/'])] := by
  have wild : isPattern (front ++ .char '/' :: anyFile) = true := by simp [isPattern, anyFile]
  have all : ∀ step ∈ Path.steps front, (!isPattern step) = true := fun step mem => by
    rw [isPattern_of_mem_steps plain mem]
    rfl
  have front_steps : ((Path.steps (front ++ .char '/' :: anyFile)).takeWhile fun step => !isPattern step) =
      Path.steps front := by
    rw [Path.steps_slash, List.takeWhile_append_of_pos all]
    exact List.append_nil _
  have rest : ((Path.steps (front ++ .char '/' :: anyFile)).dropWhile fun step => !isPattern step) =
      Path.steps anyFile := by
    rw [Path.steps_slash, List.dropWhile_append_of_pos all]
    rfl
  have whole : Text.joined [.char '/'] (Path.steps front) = front := Text.joined_pieces '/' front
  have some : Path.steps front ≠ [] := Text.pieces_ne_nil '/' front
  rw [search, if_pos wild, PathPattern.ofText, front_steps, rest, whole, if_neg some]
  rfl

theorem search_anyFile (filled : directory ≠ []) (plain : isPattern directory = false) :
    search tree (Path.join directory anyFile) =
      follow tree [.anywhere, .pattern [.char '*']] [Path.withoutEndSlashes directory] := by
  have opens : anyFile.startsWith [.char '/'] = false := rfl
  cases ends : directory.endsWith [.char '/'] with
  | true =>
    obtain ⟨front, rfl⟩ := Text.endsWith_iff.mp ends
    have plain : isPattern front = false := by simpa [isPattern] using plain
    rw [← search_slash plain, Path.join, opens]
    simp [ends]
  | false =>
    have same : Path.withoutEndSlashes (directory ++ [.char '/']) = Path.withoutEndSlashes directory :=
      Path.withoutEndSlashes_slash filled ends
    rw [← same, ← search_slash plain, Path.join, opens]
    simp [ends, filled]

/-- What is found are names in the directory itself and in those that the search enters. -/
theorem mem_follow_anyFile (here : tree.isDirectory directory = true) :
    path ∈ follow tree [.anywhere, .pattern [.char '*']] [directory] ↔
      ∃ inner ∈ [] :: ((tree.directory? directory).map (FileNode.descendants (isEntered true))).getD [],
        ∃ entry ∈ ((tree.directory? (Path.join directory inner)).map FileNode.entries).getD [],
          Path.isHidden entry.1 = false ∧ path = Path.join (Path.join directory inner) entry.1 := by
  simp only [follow, Step.found, here, or_true, if_true, List.isEmpty_cons, List.isEmpty_nil, Bool.not_false,
    Bool.not_true, Bool.true_or, Bool.and_true, matchesName_star, List.flatMap_cons, List.flatMap_nil,
    List.append_nil, List.mem_flatMap, List.mem_map, List.mem_filter, List.mem_append]
  constructor
  · rintro ⟨_, ⟨inner, isInner, rfl⟩, _, ⟨entry, ⟨isEntry, visible⟩, rfl⟩, rfl⟩
    exact ⟨inner, by simpa using isInner, entry, isEntry, by simpa using visible, rfl⟩
  · rintro ⟨inner, isInner, entry, isEntry, visible, rfl⟩
    exact ⟨_, ⟨inner, by simpa using isInner, rfl⟩, _, ⟨entry, ⟨isEntry, by simp [visible]⟩, rfl⟩, rfl⟩

end Glob

namespace Text

variable {text other : Text} {texts : List Text}

theorem mem_insertSorted : text ∈ insertSorted other texts ↔ text = other ∨ text ∈ texts := by
  induction texts with
  | nil => simp [insertSorted]
  | cons first more ih =>
    rw [insertSorted]
    split
    · simp
    · rw [List.mem_cons, ih, List.mem_cons]
      exact or_left_comm

theorem mem_sorted : text ∈ sorted texts ↔ text ∈ texts := by
  induction texts with
  | nil => rfl
  | cons first more ih => rw [sorted, mem_insertSorted, ih, List.mem_cons]

theorem endsWith_slash {ending : Text} (free : .char '/' ∉ ending) (front name : Text) :
    (front ++ .char '/' :: name).endsWith ending = name.endsWith ending := by
  rw [Bool.eq_iff_iff, endsWith_iff, endsWith_iff]
  constructor
  · intro ends
    rcases List.suffix_or_suffix_of_suffix ends (List.suffix_append front ('/' :: name)) with inside | longer
    · rcases List.suffix_cons_iff.mp inside with rfl | own
      · exact absurd List.mem_cons_self free
      · exact own
    · exact absurd (longer.subset List.mem_cons_self) free
  · exact fun ends => ends.trans ((List.suffix_cons (.char '/') name).trans (List.suffix_append front _))

end Text

theorem mem_firsts {text : Text} {texts : List Text} : text ∈ firsts texts ↔ text ∈ texts := by
  induction texts with
  | nil => rfl
  | cons first more ih =>
    rw [firsts, List.mem_cons, List.mem_filter, ih, List.mem_cons]
    by_cases same : text = first <;> simp [same]

theorem nodup_firsts (texts : List Text) : (firsts texts).Nodup := by
  induction texts with
  | nil => exact List.nodup_nil
  | cons first more ih => exact List.nodup_cons.mpr ⟨by simp [List.mem_filter], ih.filter _⟩

theorem slash_notMem_sourceExtensions : ∀ ending ∈ sourceExtensions, .char '/' ∉ ending := by decide

theorem hasExtension_below {extensions : List Text} {directory name : Text} {parents : List Text}
    (free : ∀ ending ∈ extensions, .char '/' ∉ ending) (filled : directory ≠ [])
    (all : ∀ step ∈ parents ++ [name], Path.Plain step) :
    hasExtension extensions (Path.below directory (parents ++ [name])) = hasExtension extensions name := by
  obtain ⟨front, whole⟩ := Path.exists_below_concat filled all
  rw [hasExtension, hasExtension, whole, Bool.eq_iff_iff, List.any_eq_true, List.any_eq_true]
  refine exists_congr fun ending => and_congr_right fun mem => ?_
  rw [Text.endsWith_slash (free ending mem)]

namespace FileTree

variable {tree : FileTree} {directory path : Text} {location : Location}

theorem directory?_of_locate? (leads : tree.locate? path = some location) :
    tree.directory? path = tree.at? location := by
  rw [directory?, if_neg (ne_nil_of_locate? leads), node?, leads]
  rfl

theorem directory?_below {names : List Text} (leads : tree.locate? path = some location)
    (here : (tree.at? location).any FileNode.isDirectory = true) (all : ∀ name ∈ names, Path.Plain name) :
    tree.directory? (Path.below path names) = tree.at? (location ++ names) := by
  rw [directory?, if_neg (Path.below_ne_nil (ne_nil_of_locate? leads) all), node?_below leads here all]

theorem exists_node_of_at?_append {names : List Text} (found : (tree.at? (location ++ names)).isSome) :
    ∃ node inner, tree.at? location = some node ∧ node.at? names = some inner := by
  rw [at?_append] at found
  obtain ⟨inner, found⟩ := Option.isSome_iff_exists.mp found
  obtain ⟨node, here, found⟩ := Option.bind_eq_some_iff.mp found
  exact ⟨node, inner, here, found⟩

/-- What a search for any file finds below a directory: visible names that lead to something. -/
theorem mem_search_anyFile (named : tree.root.Named) (plain : Glob.isPattern directory = false)
    (leads : tree.locate? directory = some location)
    (here : (tree.at? location).any FileNode.isDirectory = true) :
    path ∈ Glob.search tree (Path.join directory anyFile) ↔ ∃ parents name,
      (∀ step ∈ parents ++ [name], Path.Leads step) ∧ (tree.at? (location ++ (parents ++ [name]))).isSome ∧
        path = Path.below (Path.withoutEndSlashes directory) (parents ++ [name]) := by
  have base := locate?_withoutEndSlashes leads
  have isDir : tree.isDirectory (Path.withoutEndSlashes directory) = true := by
    rw [isDirectory, node?, base]
    exact here
  rw [Glob.search_anyFile (ne_nil_of_locate? leads) plain, Glob.mem_follow_anyFile isDir,
    directory?_of_locate? base]
  obtain ⟨node, found⟩ := Option.isSome_iff_exists.mp (Option.isSome_of_any here)
  rw [found]
  constructor
  · rintro ⟨inner, isInner, entry, isEntry, visible, rfl⟩
    obtain ⟨parents, lead, rfl⟩ :
        ∃ parents, (∀ step ∈ parents, Path.Leads step) ∧ inner = Text.joined [.char '/'] parents := by
      rcases List.mem_cons.mp isInner with rfl | isInner
      · exact ⟨[], by simp, rfl⟩
      · obtain ⟨names, -, lead, rfl⟩ := FileNode.exists_names_of_mem_descendants (named.at? found).2 isInner
        exact ⟨names, lead, rfl⟩
    have paved : ∀ step ∈ parents, Path.Plain step := fun step mem => (lead step mem).plain
    rw [← Path.below, directory?_below base here paved] at isEntry
    cases reached : tree.at? (location ++ parents) with
    | none => simp [reached] at isEntry
    | some parent =>
      rw [reached] at isEntry
      obtain ⟨⟨some, whole⟩, -⟩ := (named.at? reached).2.entries entry isEntry
      have own : Path.Leads entry.1 := ⟨some, whole, visible⟩
      refine ⟨parents, entry.1, List.forall_mem_append.mpr ⟨lead, by simpa using own⟩, ?_,
        Path.join_below paved own.plain⟩
      rw [← List.append_assoc, at?_append, reached, Option.bind_some, FileNode.at?_singleton]
      exact FileNode.isSome_child?_of_mem isEntry
  · rintro ⟨parents, name, all, there, rfl⟩
    obtain ⟨lead, own⟩ := List.forall_mem_append.mp all
    have own := List.forall_mem_singleton.mp own
    have paved : ∀ step ∈ parents, Path.Plain step := fun step mem => (lead step mem).plain
    rw [← List.append_assoc] at there
    obtain ⟨parent, inner, reached, further⟩ := exists_node_of_at?_append there
    rw [FileNode.at?_singleton] at further
    refine ⟨Text.joined [.char '/'] parents, ?_, (name, inner), ?_, own.visible, (Path.join_below paved own.plain).symm⟩
    · by_cases first : parents = []
      · rw [first]
        exact List.mem_cons_self
      · rw [at?_append, found] at reached
        have entered := FileNode.isDirectory_of_child? further
        exact List.mem_cons_of_mem _
          (FileNode.joined_mem_descendants first (fun step mem => (lead step mem).visible) reached entered)
    · rw [← Path.below, directory?_below base here paved, reached]
      exact FileNode.mem_entries_of_child? further

/-- The source files that a directory with a plain path stands for: the files below it whose names end with an
extension, that no hidden name leads to and on whose path nothing is an installed package. -/
theorem mem_sourceFiles_anyFile (named : tree.root.Named) (plain : Glob.isPattern directory = false)
    (leads : tree.locate? directory = some location)
    (here : (tree.at? location).any FileNode.isDirectory = true) :
    path ∈ tree.sourceFiles [directory] anyFile sourceExtensions ↔ ∃ parents name bytes locked,
      tree.at? (location ++ (parents ++ [name])) = some (.file bytes locked) ∧
        (∀ step ∈ parents ++ [name], Path.isHidden step = false) ∧
        hasExtension sourceExtensions name = true ∧ isInstalled path = false ∧
        path = Path.below (Path.withoutEndSlashes directory) (parents ++ [name]) := by
  have isDir : tree.isDirectory directory = true := by
    rw [isDirectory, node?, leads]
    exact here
  have base := locate?_withoutEndSlashes leads
  rw [sourceFiles, mem_firsts, List.flatMap_singleton, expand, if_pos isDir, filesIn, Text.mem_sorted,
    List.mem_filter, mem_search_anyFile named plain leads here]
  simp only [Bool.and_eq_true, Bool.not_eq_true']
  constructor
  · rintro ⟨⟨parents, name, all, -, rfl⟩, ⟨file, known⟩, own⟩
    have paved : ∀ step ∈ parents ++ [name], Path.Plain step := fun step mem => (all step mem).plain
    obtain ⟨bytes, locked, found⟩ :
        ∃ bytes locked, tree.at? (location ++ (parents ++ [name])) = some (.file bytes locked) := by
      rw [isFile, node?_below base here paved] at file
      obtain ⟨node, found, isFile⟩ := (Option.any_eq_true _ _).mp file
      cases node with
      | file bytes locked => exact ⟨bytes, locked, found⟩
      | directory entries => cases isFile
    rw [hasExtension_below slash_notMem_sourceExtensions (ne_nil_of_locate? base) paved] at known
    exact ⟨parents, name, bytes, locked, found, fun step mem => (all step mem).visible, known, own, rfl⟩
  · rintro ⟨parents, name, bytes, locked, found, visible, known, own, rfl⟩
    have all : ∀ step ∈ parents ++ [name], Path.Leads step := by
      intro step mem
      obtain ⟨filled, whole⟩ := (named.at? found).1 step (List.mem_append_right location mem)
      exact ⟨filled, whole, visible step mem⟩
    have paved : ∀ step ∈ parents ++ [name], Path.Plain step := fun step mem => (all step mem).plain
    refine ⟨⟨parents, name, all, Option.isSome_of_eq_some found, rfl⟩, ⟨?_, ?_⟩, own⟩
    · rw [isFile, node?_below base here paved, found]
      rfl
    · rw [hasExtension_below slash_notMem_sourceExtensions (ne_nil_of_locate? base) paved, known]

/-- With a wildcard in its path the directory is missed, and the file of another one is found. -/
example : sourceFiles ⟨.directory [("[br]".codePoints, .directory [("a.js".codePoints, .file [])]),
    ("b".codePoints, .directory [("a.js".codePoints, .file [])])], []⟩ ["[br]".codePoints] anyFile sourceExtensions =
      ["b/a.js".codePoints] := by decide

/-- No file is named twice, whatever the paths and the pattern. -/
theorem nodup_sourceFiles (tree : FileTree) (paths : List Text) (pattern : Text) (extensions : List Text) :
    (tree.sourceFiles paths pattern extensions).Nodup :=
  nodup_firsts _

end FileTree

end ClassMigration
