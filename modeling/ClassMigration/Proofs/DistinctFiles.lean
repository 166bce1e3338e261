import ClassMigration.Proofs.ParallelRuns
import ClassMigration.Proofs.SearchedPaths

/-! Whether a run comes to a file twice. Paths are told apart by their text, and a file is given under each spelling of
its path. Where the paths and the pattern lead down from one base by plain names, every file has one spelling, so
overlapping paths give each file once. -/
namespace ClassMigration.FileTree

variable {tree : FileTree} {paths : List Text} {base pattern : Text} {extensions : List Text}

/-- Files of paths that are spelled from one base are at different places. -/
theorem pairwise_elsewhere (isBase : Path.IsBase base) (each : tree.root.Each Path.Plain)
    (spelled : ∀ path ∈ paths, Path.SpelledFrom base path) (plain : ∀ step ∈ Path.steps pattern, Path.Plain step) :
    (tree.sourceFiles paths pattern extensions).Pairwise tree.Elsewhere := by
  have origin {file : Text} (mem : file ∈ tree.sourceFiles paths pattern extensions) :
      Path.SpelledFrom base file ∧ tree.isDirectory file = false := by
    obtain ⟨path, isPath, mem⟩ := List.mem_flatMap.mp (mem_firsts.mp mem)
    exact ⟨spelledFrom_of_mem_expand isBase each plain (spelled path isPath) mem, isDirectory_of_mem_expand mem⟩
  apply (nodup_sourceFiles tree paths pattern extensions).imp_of_mem
  intro a b memA memB distinct
  cases leads : tree.locate? a with
  | none => exact .inl leads
  | some location =>
    refine .inr fun same => distinct ?_
    obtain ⟨spelledA, fileA⟩ := origin memA
    obtain ⟨spelledB, fileB⟩ := origin memB
    exact eq_of_spelledFrom spelledA spelledB leads (same.symm.trans leads) fileA fileB

/-- Each path is given once, and one that is no directory is given as it is spelled. Where all paths are spelled from
one base by plain names and the pattern has plain steps, no two of the files are one: a run has at most one outcome
for each, and when it works on several at once no two of its tasks are about one file. -/
theorem sourceFiles_elsewhere (tree : FileTree) (paths : List Text) (pattern : Text) (extensions : List Text) :
    let files := tree.sourceFiles paths pattern extensions
    files.Nodup ∧
    (∀ path ∈ paths, tree.isDirectory path = false → path ∈ files) ∧
    ∀ base, Path.IsBase base → tree.root.Each Path.Plain → (∀ path ∈ paths, Path.SpelledFrom base path) →
      (∀ step ∈ Path.steps pattern, Path.Plain step) →
      files.Pairwise tree.Elsewhere ∧
      ∀ run : Run, (∀ jobs outcomes last, run.paths tree paths pattern jobs = (.ok outcomes, last) →
          outcomes.Pairwise fun a b => tree.Elsewhere a.path b.path) ∧
        ∀ pool, run.Reaches (.start tree files) pool →
          pool.tasks.Pairwise fun a b => tree.Elsewhere a.path b.path := by
  intro files
  refine ⟨nodup_sourceFiles tree paths pattern extensions, fun path mem other => ?_, ?_⟩
  · apply mem_firsts.mpr
    apply List.mem_flatMap.mpr
    refine ⟨path, mem, ?_⟩
    simp [expand, other]
  · intro base isBase each spelled plain
    have apart : files.Pairwise tree.Elsewhere := pairwise_elsewhere isBase each spelled plain
    refine ⟨apart, fun run => ⟨fun jobs outcomes last given => ?_, fun pool reached => ?_⟩⟩
    · apply List.pairwise_map.mp
      rw [(Run.files_eq_ok_iff.mp (Run.paths_eq_ok_iff.mp given)).1]
      exact pairwise_elsewhere isBase each spelled plain
    · apply List.pairwise_map.mp
      rw [(Run.Sound.reaches apart reached).paths]
      exact apart

/-- Paths that overlap below the current directory. -/
theorem sourceFiles_elsewhere_overlapping :
    let tree : FileTree := ⟨.directory [("src".codePoints, .directory [("a.js".codePoints, .file []),
      (".b".codePoints, .directory [("c.css".codePoints, .file [])])])], []⟩
    let paths := ["./src/a.js".codePoints, "./src/".codePoints, "./src/.b/c.css".codePoints, ".".codePoints]
    Path.IsBase [.char '.'] ∧ tree.root.Each Path.Plain ∧ (∀ path ∈ paths, Path.SpelledFrom [.char '.'] path) ∧
      (∀ step ∈ Path.steps anyFile, Path.Plain step) ∧
      tree.sourceFiles paths anyFile sourceExtensions = ["./src/a.js".codePoints, "./src/.b/c.css".codePoints] ∧
      (tree.sourceFiles paths anyFile sourceExtensions).Pairwise tree.Elsewhere := by
  intro tree paths
  have isBase : Path.IsBase [.char '.'] := by decide
  have each : tree.root.Each Path.Plain := by
    refine .directory (by decide) (List.forall_mem_singleton.mpr ?_)
    refine .directory (by decide) (List.forall_mem_cons.mpr ⟨.file, List.forall_mem_singleton.mpr ?_⟩)
    exact .directory (by decide) (List.forall_mem_singleton.mpr .file)
  have spelled : ∀ path ∈ paths, Path.SpelledFrom [.char '.'] path := by
    simp only [paths, List.forall_mem_cons]
    refine ⟨⟨["src".codePoints, "a.js".codePoints], by decide, .inl rfl⟩, ⟨["src".codePoints], by decide, .inr rfl⟩,
      ⟨["src".codePoints, ".b".codePoints, "c.css".codePoints], by decide, .inl rfl⟩, ⟨[], by decide, .inl rfl⟩,
      by simp⟩
  have plain : ∀ step ∈ Path.steps anyFile, Path.Plain step := by decide
  exact ⟨isBase, each, spelled, plain, by decide,
    ((sourceFiles_elsewhere tree paths anyFile sourceExtensions).2.2 [.char '.'] isBase each spelled plain).1⟩

/-- Two spellings of one file are both given, and it is counted twice. -/
theorem sourceFiles_respelled :
    let sheet := ".MuiAlert-filledInfo\x7b\x7d".codePoints
    let tree : FileTree := ⟨.directory [("a.css".codePoints, .file (Utf8.encode sheet))], []⟩
    let paths := ["a.css".codePoints, "./a.css".codePoints]
    let run : Run := ⟨.alert, .default, true⟩
    tree.sourceFiles paths anyFile sourceExtensions = paths ∧
      tree.locate? "a.css".codePoints = tree.locate? "./a.css".codePoints ∧ tree.isFile "a.css".codePoints = true ∧
      ¬(tree.sourceFiles paths anyFile sourceExtensions).Pairwise tree.Elsewhere ∧
      (run.paths tree paths anyFile 1).1.map (List.map fun outcome => (outcome.path, outcome.result.name)) =
        .ok [("a.css".codePoints, "changed".codePoints), ("./a.css".codePoints, "changed".codePoints)] := by
  decide +kernel

end ClassMigration.FileTree
