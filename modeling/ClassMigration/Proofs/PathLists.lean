import ClassMigration.Proofs.DirectorySearch

/-! Source files of several paths, path by path. Each path adds the files that no earlier one has given, whether they
are given by name or found in a directory, so a list of paths in two parts gives the files of the first part and
then the new ones of the second. -/
namespace ClassMigration

theorem firsts_append (front back : List Text) :
    firsts (front ++ back) = firsts front ++ (firsts back).filter (· ∉ front) := by
  induction front with
  | nil => simp [firsts]
  | cons text more ih =>
    have both : ((firsts back).filter (· ∉ more)).filter (· != text) = (firsts back).filter (· ∉ text :: more) := by
      rw [List.filter_filter]
      apply List.filter_congr
      intro other _
      by_cases same : other = text <;> simp [same]
    rw [List.cons_append, firsts, firsts, ih, List.filter_append, both, List.cons_append]

namespace FileTree

variable (tree : FileTree) (pattern : Text) (extensions : List Text)

/-- Two lists of paths one behind the other give the files of the first and then those of the second that the first
does not give, in their order. No path is given twice, so naming all paths once more adds nothing. -/
theorem sourceFiles_append (front back : List Text) :
    let files := fun paths => tree.sourceFiles paths pattern extensions
    files (front ++ back) = files front ++ (files back).filter (· ∉ files front) ∧
      (files front).Nodup ∧ files (front ++ front) = files front := by
  intro files
  have parts (back : List Text) : files (front ++ back) = files front ++ (files back).filter (· ∉ files front) := by
    have given (path : Text) : path ∈ files front ↔ path ∈ front.flatMap (tree.expand pattern extensions) :=
      mem_firsts
    simp only [given]
    exact (congrArg firsts List.flatMap_append).trans (firsts_append _ _)
  refine ⟨parts back, nodup_firsts _, ?_⟩
  have nothing : (files front).filter (· ∉ files front) = [] := by
    apply List.filter_eq_nil_iff.mpr
    simp
  rw [parts front, nothing, List.append_nil]

/-- A file, its directory and the file again. -/
example :
    let entries := [("x.js".codePoints, FileNode.file []), ("y.css".codePoints, .file [])]
    sourceFiles ⟨.directory [("a".codePoints, .directory entries)], []⟩ ["a/y.css".codePoints, "a".codePoints, "a/y.css".codePoints] anyFile sourceExtensions =
      ["a/y.css".codePoints, "a/x.js".codePoints] := by decide

end FileTree

end ClassMigration
