import ClassMigration.Proofs.Paths

/-! Paths that lead down from a base by plain names. Such a path has one spelling for each place: the names are those
that lead from the place of the base to it. A slash at the end does not lead elsewhere, but then only a directory can
be there. -/
namespace ClassMigration

namespace Path

/-- Plain names lead from the base to the path. A slash may end it. -/
def SpelledFrom (base path : Text) : Prop :=
  ∃ names, (∀ name ∈ names, Plain name) ∧ (path = along base names ∨ path = join (along base names) [])

variable {base : Text} {more : List Text}

theorem SpelledFrom.exists_along {place : Text} (spelled : SpelledFrom base place) (some : more ≠ [])
    (all : ∀ name ∈ more, Plain name) : ∃ names, names ≠ [] ∧ (∀ name ∈ names, Plain name) ∧
      below place more = along base names := by
  obtain ⟨names, own, rfl | rfl⟩ := spelled
  · refine ⟨names ++ more, by simp [some], List.forall_mem_append.mpr ⟨own, all⟩, ?_⟩
    rw [below_eq_along some all, along_append]
  · refine ⟨names ++ more, by simp [some], List.forall_mem_append.mpr ⟨own, all⟩, ?_⟩
    rw [below, join_join_nil (startsWith_joined all), ← below, below_eq_along some all, along_append]

theorem SpelledFrom.below {place : Text} (spelled : SpelledFrom base place) (all : ∀ name ∈ more, Plain name) :
    SpelledFrom base (below place more) := by
  by_cases some : more = []
  · subst some
    obtain ⟨names, own, rfl | rfl⟩ := spelled
    · exact ⟨names, own, .inr rfl⟩
    · exact ⟨names, own, .inr (join_join_nil rfl)⟩
  · obtain ⟨names, -, all, whole⟩ := spelled.exists_along some all
    exact ⟨names, all, .inl whole⟩

end Path

namespace FileTree

variable {tree : FileTree} {base path name : Text} {names : List Text} {location : Location}

theorem named_of_locate? (leads : tree.locate? path = some location) : location = tree.named path := by
  have follows (steps : List Text) (origin : Location) (reached : steps.foldlM tree.step? origin = some location) :
      location = steps.foldl after origin := by
    induction steps generalizing origin with
    | nil => exact (Option.some.inj reached).symm
    | cons step more ih =>
      obtain ⟨next, first, further⟩ := Option.bind_eq_some_iff.mp reached
      have own : next = after origin step := by
        rw [step?] at first
        split at first
        · exact (Option.some.inj first).symm
        · cases first
      rw [List.foldl_cons, ← own]
      exact ih next further
  rw [locate?, if_neg (ne_nil_of_locate? leads)] at leads
  exact follows _ _ leads

theorem isDirectory_of_locate?_slash (leads : tree.locate? (path ++ [.char '/']) = some location) :
    tree.isDirectory (path ++ [.char '/']) = true := by
  have whole := leads
  rw [locate?, if_neg (by simp)] at whole
  rw [isDirectory, node?, leads]
  exact (foldlM_steps_slash whole).2

theorem named_slash (front rest : Text) :
    tree.named (front ++ .char '/' :: rest) = (Path.steps rest).foldl after (tree.named (front ++ [.char '/'])) := by
  have start : tree.start (front ++ .char '/' :: rest) = tree.start (front ++ [.char '/']) := by
    cases front <;> simp [FileTree.start, Text.startsWith, List.isPrefixOf]
  rw [named, named, start, Path.steps_slash, Path.steps_slash, List.foldl_append, List.foldl_append]
  rfl

theorem named_join_nil (directory : Text) : tree.named (Path.join directory []) = tree.named directory := by
  by_cases filled : directory = []
  · rw [filled]
    rfl
  · obtain ⟨front, whole, ⟨rfl, -⟩ | rfl⟩ := Path.join_nil_eq filled
    · rw [whole, named, named, start_append filled, Path.steps_slash, List.foldl_append]
      rfl
    · rw [whole]

theorem named_join (directory : Text) (own : Path.Plain name) :
    tree.named (Path.join directory name) = tree.named directory ++ [name] := by
  have alone : name.startsWith [.char '/'] = false := own.startsWith_self
  have single : Path.steps name = [name] := Text.pieces_of_notMem own.whole
  rw [Path.join_eq_append alone, ← named_join_nil directory]
  by_cases filled : directory = []
  · subst filled
    change tree.named name = tree.named [] ++ [name]
    rw [named, single, start, alone]
    exact after_of_plain own
  · obtain ⟨front, whole, -⟩ := Path.join_nil_eq filled
    rw [whole, List.append_assoc, List.singleton_append, named_slash, single]
    exact after_of_plain own

theorem named_along (all : ∀ name ∈ names, Path.Plain name) :
    tree.named (Path.along base names) = tree.named base ++ names := by
  induction names generalizing base with
  | nil => exact (List.append_nil _).symm
  | cons name more ih =>
    obtain ⟨own, all⟩ := List.forall_mem_cons.mp all
    change tree.named (Path.along (Path.join base name) more) = _
    rw [ih all, named_join base own, List.append_assoc, List.singleton_append]

theorem eq_of_spelledFrom {path' : Text} (spelled : Path.SpelledFrom base path) (spelled' : Path.SpelledFrom base path')
    (leads : tree.locate? path = some location) (leads' : tree.locate? path' = some location)
    (file : tree.isDirectory path = false) (file' : tree.isDirectory path' = false) : path = path' := by
  have along {path : Text} (spelled : Path.SpelledFrom base path) (leads : tree.locate? path = some location)
      (file : tree.isDirectory path = false) :
      ∃ names, path = Path.along base names ∧ location = tree.named base ++ names := by
    obtain ⟨names, all, rfl | rfl⟩ := spelled
    · exact ⟨names, rfl, (named_of_locate? leads).trans (named_along all)⟩
    · -- a slash at the end would make it a directory
      by_cases filled : Path.along base names = []
      · rw [filled] at leads
        exact absurd rfl (ne_nil_of_locate? leads)
      · obtain ⟨front, whole, -⟩ := Path.join_nil_eq filled
        rw [whole] at leads file
        rw [isDirectory_of_locate?_slash leads] at file
        cases file
  obtain ⟨names, rfl, same⟩ := along spelled leads file
  obtain ⟨names', rfl, same'⟩ := along spelled' leads' file'
  rw [List.append_cancel_left (same.symm.trans same')]

end FileTree

end ClassMigration
