import ClassMigration.Proofs.Encoding
import ClassMigration.Proofs.FileRuns
import ClassMigration.Proofs.Script.Sites
import ClassMigration.Proofs.ScriptSeparation
import ClassMigration.Proofs.SheetOrder

/-! What a run changes in the bytes of a file. Every edit of the text replaces the bytes at its place, from the
one that begins its span to the one that ends it; all other bytes stay, those of a byte order mark and of line
ends among them. -/
namespace ClassMigration

/-- Replaces the bytes from `start` up to `stop`. -/
structure Patch where
  start : Nat
  stop : Nat
  bytes : Bytes
  deriving DecidableEq

namespace Patch

/-- The patch made alone. -/
def apply (patch : Patch) (bytes : Bytes) : Bytes :=
  bytes.take patch.start ++ patch.bytes ++ bytes.drop patch.stop

variable {bytes : Bytes} {patches : List Patch} {k : Nat}

theorem take_foldr (inside : k ≤ bytes.length) (later : ∀ p ∈ patches, k ≤ p.start) :
    (patches.foldr apply bytes).take k = bytes.take k := by
  induction patches with
  | nil => rfl
  | cons patch more ih =>
    obtain ⟨own, later⟩ := List.forall_mem_cons.mp later
    exact take_replaced (ih later) inside own

end Patch

namespace Edit

/-- The edit in the bytes of the source: its span reaches over the bytes of the characters in it. -/
def patch (source : Text) (edit : Edit) : Patch where
  start := Utf8.offset source edit.span.start
  stop := Utf8.offset source edit.span.stop
  bytes := Utf8.encode edit.text

variable {source out : Text} {edits : List Edit} {edit : Edit}

theorem encode_splice {cursor : Nat} (order : ∀ e ∈ edits, e.span.start ≤ e.span.stop)
    (made : splice source cursor edits = .ok out) :
    Utf8.encode out = ((edits.map (patch source)).foldr Patch.apply (Utf8.encode source)).drop
      (Utf8.offset source cursor) := by
  induction edits generalizing cursor out with
  | nil =>
    cases made
    exact (Utf8.drop_offset source cursor).symm
  | cons edit more ih =>
    obtain ⟨own, rest, tail, rfl⟩ := splice_cons_ok.mp made
    obtain ⟨ordered, order⟩ := List.forall_mem_cons.mp order
    obtain ⟨behind, -⟩ := apart_of_splice order tail
    have later : ∀ p ∈ more.map (patch source), (edit.patch source).start ≤ p.start := by
      intro p mem
      obtain ⟨e, isLater, rfl⟩ := List.mem_map.mp mem
      exact Utf8.offset_mono (Nat.le_trans ordered (behind e isLater)) source
    have inside : (edit.patch source).start ≤ (Utf8.encode source).length := Utf8.offset_le_length _ _
    have front := Patch.take_foldr inside later
    have room : Utf8.offset source cursor ≤ ((Utf8.encode source).take (edit.patch source).start).length := by
      rw [List.length_take, Nat.min_eq_left inside]
      exact Utf8.offset_mono own source
    calc
      _ = Utf8.encode (source.slice cursor edit.span.start) ++ Utf8.encode edit.text ++ Utf8.encode rest := by
        rw [Utf8.encode_append, Utf8.encode_append]
      _ = ((Utf8.encode source).take (edit.patch source).start).drop (Utf8.offset source cursor) ++
          (edit.patch source).bytes ++
          ((more.map (patch source)).foldr Patch.apply (Utf8.encode source)).drop (edit.patch source).stop := by
        rw [← Utf8.slice_offset own, ih order tail]
        rfl
      _ = _ := by
        rw [List.map_cons, List.foldr_cons, Patch.apply, front, List.append_assoc, List.append_assoc,
          List.drop_append_of_le_length room]

/-- All edits of a source patch its bytes, the last one first. -/
theorem encode_applyAll (order : ∀ e ∈ edits, e.span.start ≤ e.span.stop)
    (made : applyAll source edits = .ok out) :
    Utf8.encode out = ((bySpan edits).map (patch source)).foldr Patch.apply (Utf8.encode source) := by
  rw [applyAll, arranged_eq_bySpan] at made
  rw [encode_splice (fun e mem => order e (List.mem_mergeSort.mp mem)) made]
  rfl

theorem text_subset_of_splice {cursor : Nat} (made : splice source cursor edits = .ok out) (mem : edit ∈ edits) :
    edit.text ⊆ out := by
  induction edits generalizing cursor out with
  | nil => cases mem
  | cons first more ih =>
    obtain ⟨-, rest, tail, rfl⟩ := splice_cons_ok.mp made
    rcases List.mem_cons.mp mem with rfl | later
    · exact fun c own => List.mem_append_left _ (List.mem_append_right _ own)
    · exact fun c own => List.mem_append_right _ (ih tail later own)

theorem encodable_text (made : applyAll source edits = .ok out) (whole : Utf8.Encodable out) :
    ∀ e ∈ edits, Utf8.Encodable e.text := by
  rw [applyAll, arranged_eq_bySpan] at made
  exact fun e mem c own => whole c (text_subset_of_splice made (List.mem_mergeSort.mpr mem) own)

/-- The patches of edits that can be made are ranges of the bytes, one behind the other. -/
theorem patches_apart (order : ∀ e ∈ edits, e.span.start ≤ e.span.stop)
    (made : applyAll source edits = .ok out) :
    (bySpan edits).Pairwise fun a b => (a.patch source).stop ≤ (b.patch source).start := by
  rw [applyAll, arranged_eq_bySpan] at made
  obtain ⟨-, apart⟩ := apart_of_splice (fun e mem => order e (List.mem_mergeSort.mp mem)) made
  exact apart.imp fun behind => Utf8.offset_mono behind source

end Edit

namespace Script.StringLiteral

variable {source : Text} {literal : StringLiteral} {span : Span}

/-- A literal of which something is written is edited in a span that does not end before it begins. -/
theorem place?_order (some : literal.written ≠ []) (found : literal.place? source = .some span) :
    span.start ≤ span.stop := by
  rw [place?] at found
  split at found
  case isTrue own =>
    cases found
    have filled := List.length_pos_iff.mpr some
    rw [← own, Span.text, Text.length_slice] at filled
    omega
  case isFalse =>
    obtain ⟨offset, -, rfl⟩ := Option.map_eq_some_iff.mp found
    exact Nat.le_add_right _ _

end Script.StringLiteral

namespace Migration

theorem scriptEdits_order_of_read {source : Text} {outline : Script.Outline} (migration : Migration)
    (options : Options) (read : Script.Outline.read source = .ok outline) :
    ∀ edit ∈ migration.scriptEdits outline options, edit.span.start ≤ edit.span.stop :=
  scriptEdits_order_of (fun _ isMember _ => Script.Outline.order_of_read read isMember)
    fun literal isLiteral _ found => literal.place?_order (Script.Outline.written_of_read read isLiteral) found

end Migration

namespace Run

variable {run : Run} {tree next : FileTree} {path source output : Text} {bytes : Bytes} {edits : List Edit}
  {count : Nat}

theorem edits_order (found : run.edits path source = .ok edits) : ∀ e ∈ edits, e.span.start ≤ e.span.stop := by
  rw [Run.edits] at found
  split at found
  case isTrue =>
    cases read : Stylesheet.Sheet.read source with
    | error fault =>
      rw [read] at found
      cases found
    | ok sheet =>
      rw [read] at found
      cases found
      exact fun e mem => Nat.le_of_lt (Migration.edits_filled read e mem)
  case isFalse =>
    cases read : Script.Outline.read source with
    | error fault =>
      rw [read] at found
      cases found
    | ok outline =>
      rw [read] at found
      cases found
      exact Migration.scriptEdits_order_of_read run.migration run.options read

/-- When a run changes a file, the file's bytes were the text that was migrated. Every edit has a range of
them that encodes the characters of its span, and these ranges lie one behind the other. The file then
holds the same bytes with each range replaced by the edit's text in UTF-8, which can be encoded. -/
theorem write_patches (live : run.dry = false) (read : tree.read? path = some bytes)
    (changed : run.work tree path = (.ok (.changed count output), next)) :
    ∃ source edits, Utf8.decode? bytes = some source ∧ run.edits path source = .ok edits ∧
      edits.length = count ∧
      (∀ e ∈ edits, Utf8.Encodable e.text ∧ (e.patch source).start ≤ (e.patch source).stop ∧
        (e.patch source).stop ≤ bytes.length ∧
        (bytes.take (e.patch source).stop).drop (e.patch source).start = Utf8.encode (e.span.text source)) ∧
      ((Edit.bySpan edits).Pairwise fun a b => (a.patch source).stop ≤ (b.patch source).start) ∧
      next.read? path = some (((Edit.bySpan edits).map (Edit.patch source)).foldr Patch.apply bytes) := by
  obtain ⟨came, wrote⟩ := work_eq_changed changed
  obtain ⟨-, bytes', source, edits, same, text, found, -, made, rfl⟩ := resultOn_eq_changed_iff.mp came
  obtain rfl : bytes = bytes' := Option.some.inj (read.symm.trans same)
  have order := edits_order found
  have whole : Utf8.encode source = bytes := Utf8.encode_of_decode? text
  refine ⟨source, edits, text, found, rfl, fun e mem => ?_, Edit.patches_apart order made, ?_⟩
  · rw [← whole]
    exact ⟨Edit.encodable_text made (wrote live).1 e mem, Utf8.offset_mono (order e mem) source,
      Utf8.offset_le_length source e.span.stop, Utf8.slice_offset (order e mem) source⟩
  · rw [(wrote live).2, FileTree.read?_overwrite_self read, Edit.encode_applyAll order made, whole]

/-- A script with a byte order mark and with all three line ends. Characters of two, three and four bytes stand
in front of its edits. -/
def mixed : Text :=
  ("\uFEFF// é\r\nimport \x7balertClasses as a\x7d from '@mui/material/Alert';\r" ++
    "x = ['€ &.MuiAlert-filledInfo',\n'😀', `&.$\x7b\u00A0a.filledInfo\x7d`]\r\n").codePoints

/-- The slot and the literal are edited. Their places in the bytes are not those in the text. -/
theorem write_patches_mixed :
    let run : Run := ⟨.alert, .default, false⟩
    let path := "a.js".codePoints
    let tree : FileTree := ⟨.directory [(path, .file (Utf8.encode mixed))], []⟩
    ∃ output edits next, tree.read? path = some (Utf8.encode mixed) ∧
      run.work tree path = (.ok (.changed 2 output), next) ∧
      edits.map Edit.span = [⟨100, 118⟩, ⟨67, 92⟩] ∧
      edits.map (fun e => ((e.patch mixed).start, (e.patch mixed).stop)) = [(108, 127), (70, 97)] ∧
      next.read? path =
        some (((Edit.bySpan edits).map (Edit.patch mixed)).foldr Patch.apply (Utf8.encode mixed)) := by
  intro run path tree
  have text : Utf8.decode? (Utf8.encode mixed) = some mixed := by decide +kernel
  have places : (run.edits path mixed).toOption.any (fun edits =>
      edits.map Edit.span = [⟨100, 118⟩, ⟨67, 92⟩] ∧
        edits.map (fun e => ((e.patch mixed).start, (e.patch mixed).stop)) = [(108, 127), (70, 97)]) = true := by
    decide +kernel
  have read : tree.read? path = some (Utf8.encode mixed) := by decide +kernel
  have result : (run.work tree path).1.toOption.any (fun result =>
      result.output?.isSome ∧ result.edits = 2) = true := by decide +kernel
  obtain ⟨output, next, changed⟩ : ∃ output next, run.work tree path = (.ok (.changed 2 output), next) := by
    rcases made : run.work tree path with ⟨abort | result, next⟩
    · simp [made, Except.toOption] at result
    · cases result with
      | changed count output =>
        have two : count = 2 := by simpa [made, Except.toOption, FileResult.output?, FileResult.edits] using result
        exact ⟨output, next, by rw [two]⟩
      | _ => simp [made, Except.toOption, FileResult.output?] at result
  obtain ⟨source, edits, same, found, -, -, -, written⟩ := write_patches rfl read changed
  obtain rfl := Option.some.inj (text.symm.trans same)
  rw [found] at places
  obtain ⟨spans, ranges⟩ := of_decide_eq_true places
  exact ⟨output, edits, next, read, changed, spans, ranges, written⟩

end Run

end ClassMigration
