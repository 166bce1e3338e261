import Mathlib.Data.List.Nodup
import ClassMigration.Outcome
import ClassMigration.Proofs.Undo

/-! Edits apart from one another, in whatever order they come. The pass takes edits exactly if of any two one
ends before the other begins. Where no two have the same span, their order does not matter. -/
namespace ClassMigration

namespace Span

/-- One of the spans ends where the other begins, or before. -/
def Separate (a b : Span) : Prop := a.stop ≤ b.start ∨ b.stop ≤ a.start

instance (a b : Span) : Decidable (a.Separate b) := inferInstanceAs (Decidable (_ ∨ _))

theorem Separate.symm {a b : Span} (separate : a.Separate b) : b.Separate a := Or.symm separate

theorem precedes_antisymm {a b : Span} (first : a.precedes b = true) (second : b.precedes a = true) :
    a = b := by
  rw [precedes_iff] at first second
  have start : a.start = b.start := by omega
  have stop : a.stop = b.stop := by omega
  cases a
  cases b
  simp_all

end Span

namespace Edit

/-- Of any two edits one ends before the other begins. -/
def Separate (edits : List Edit) : Prop := edits.Pairwise fun a b => a.span.Separate b.span

variable {source : Text} {edits edits' : List Edit}

theorem Apart.separate (apart : Apart edits) : Separate edits := apart.imp Or.inl

theorem separate_iff_of_perm (perm : edits.Perm edits') : Separate edits ↔ Separate edits' :=
  perm.pairwise_iff Span.Separate.symm

theorem bySpan_perm (edits : List Edit) : (bySpan edits).Perm edits := List.mergeSort_perm _ _

theorem bySpan_sorted (edits : List Edit) : (bySpan edits).Pairwise fun a b => a.span.precedes b.span :=
  List.pairwise_mergeSort (fun a b c => Span.precedes_trans a.span b.span c.span)
    (fun a b => Span.precedes_total a.span b.span) edits

theorem exists_splice_of_apart {cursor : Nat} (apart : Apart edits)
    (later : ∀ e ∈ edits, cursor ≤ e.span.start) :
    ∃ out, splice source cursor edits = .ok out := by
  induction edits generalizing cursor with
  | nil => exact ⟨_, rfl⟩
  | cons edit more ih =>
    obtain ⟨behind, apart⟩ := List.pairwise_cons.mp apart
    obtain ⟨rest, tail⟩ := ih apart behind
    exact ⟨_, splice_cons_ok.mpr ⟨later edit List.mem_cons_self, rest, tail, rfl⟩⟩

theorem exists_applyAll_iff (order : ∀ e ∈ edits, e.span.start ≤ e.span.stop) :
    (∃ out, applyAll source edits = .ok out) ↔ Separate edits := by
  have perm := bySpan_perm edits
  have order : ∀ e ∈ bySpan edits, e.span.start ≤ e.span.stop := fun e mem => order e (perm.subset mem)
  rw [applyAll, arranged_eq_bySpan, ← separate_iff_of_perm perm]
  constructor
  · rintro ⟨out, ok⟩
    exact (apart_of_splice order ok).2.separate
  · intro separate
    apply exists_splice_of_apart
    · exact apart_of_sorted order (bySpan_sorted edits) separate
    · exact fun e _ => Nat.zero_le _

/-- Separate edits that cover something have spans of their own. -/
theorem Separate.nodup_spans (separate : Separate edits) (filled : ∀ e ∈ edits, e.span.start < e.span.stop) :
    (edits.map Edit.span).Nodup := by
  apply List.pairwise_map.mpr
  refine separate.imp_of_mem ?_
  intro a b mem _ apart same
  have own := filled a mem
  rw [← same] at apart
  rcases apart with before | before <;> omega

theorem arranged_eq_of_perm (distinct : (edits.map Edit.span).Nodup) (perm : edits.Perm edits') :
    arranged edits = arranged edits' := by
  rw [arranged_eq_bySpan, arranged_eq_bySpan]
  have both : (bySpan edits).Perm (bySpan edits') :=
    ((bySpan_perm edits).trans perm).trans (bySpan_perm edits').symm
  refine List.Perm.eq_of_pairwise ?_ (bySpan_sorted edits) (bySpan_sorted edits') both
  intro a b mem mem' first second
  have mem : a ∈ edits := (bySpan_perm edits).subset mem
  have mem' : b ∈ edits := perm.symm.subset ((bySpan_perm edits').subset mem')
  exact List.inj_on_of_nodup_map distinct mem mem' (Span.precedes_antisymm first second)

end Edit

namespace Outcome

variable {source : Text} {edits edits' : List Edit}

theorem exists_ofEdits_iff (order : ∀ e ∈ edits, e.span.start ≤ e.span.stop) :
    (∃ outcome, ofEdits source edits = .ok outcome) ↔ Edit.Separate edits := by
  rw [← @Edit.exists_applyAll_iff source edits order]
  cases edits with
  | nil => exact ⟨fun _ => ⟨_, rfl⟩, fun _ => ⟨_, rfl⟩⟩
  | cons edit more =>
    cases applied : Edit.applyAll source (edit :: more) <;> simp [ofEdits, applied, Except.map]

theorem ofEdits_eq_of_perm (distinct : (edits.map Edit.span).Nodup) (perm : edits.Perm edits') :
    ofEdits source edits = ofEdits source edits' := by
  have same : Edit.applyAll source edits = Edit.applyAll source edits' := by
    rw [Edit.applyAll, Edit.applyAll, Edit.arranged_eq_of_perm distinct perm]
  have empty : edits.isEmpty = edits'.isEmpty := by
    rw [Bool.eq_iff_iff, List.isEmpty_iff, List.isEmpty_iff]
    constructor
    · rintro rfl
      exact perm.nil_eq.symm
    · rintro rfl
      exact perm.eq_nil
  rw [ofEdits, ofEdits, empty, same, perm.length_eq]

end Outcome

end ClassMigration
