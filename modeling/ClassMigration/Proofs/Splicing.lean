import ClassMigration.Proofs.Edits

/-! One pass over all edits beside edits made one by one. The pass takes the edits in the stable order of
their spans. It refuses them exactly where one of them begins before the end of an earlier one, and
otherwise gives the text that the edits give when each is made alone, the last one first. -/
namespace ClassMigration

namespace Span

theorem precedes_trans (a b c : Span) (first : a.precedes b = true) (second : b.precedes c = true) :
    a.precedes c = true := by
  rw [precedes_iff] at *
  omega

theorem precedes_total (a b : Span) : (a.precedes b || b.precedes a) = true := by
  rw [Bool.or_eq_true, precedes_iff, precedes_iff]
  omega

end Span

theorem take_replaced {list whole new : List α} {k start stop : Nat} (same : list.take k = whole.take k)
    (inside : k ≤ whole.length) (later : k ≤ start) :
    (list.take start ++ new ++ list.drop stop).take k = whole.take k := by
  have long : k ≤ list.length := by
    have lengths := congrArg List.length same
    simp only [List.length_take] at lengths
    omega
  have front : k ≤ (list.take start).length := by
    rw [List.length_take]
    exact Nat.le_min.mpr ⟨later, long⟩
  rw [List.append_assoc, List.take_append_of_le_length front, List.take_take, Nat.min_eq_left later, same]

namespace Edit

/-- The edit made alone. -/
def apply (edit : Edit) (source : Text) : Text :=
  source.take edit.span.start ++ edit.text ++ source.drop edit.span.stop

/-- The edit's span is a range of the text. -/
structure Within (source : Text) (edit : Edit) : Prop where
  order : edit.span.start ≤ edit.span.stop
  bound : edit.span.stop ≤ source.length

instance (source : Text) (edit : Edit) : Decidable (edit.Within source) :=
  decidable_of_iff (edit.span.start ≤ edit.span.stop ∧ edit.span.stop ≤ source.length)
    ⟨fun h => ⟨h.1, h.2⟩, fun h => ⟨h.order, h.bound⟩⟩

/-- The edits in the stable order of their spans. -/
def bySpan (edits : List Edit) : List Edit := edits.mergeSort fun a b => a.span.precedes b.span

/-- Some edit begins before the end of an earlier one. -/
def Clashing (edits : List Edit) : Prop :=
  ∃ (i j : Nat) (a b : Edit), i < j ∧ edits[i]? = some a ∧ edits[j]? = some b ∧ b.span.start < a.span.stop

/-- Every edit begins at the end of each earlier one or behind it. -/
def Apart (edits : List Edit) : Prop := edits.Pairwise fun a b => a.span.stop ≤ b.span.start

variable {source out : Text} {edits : List Edit}

theorem clashing_iff : Clashing edits ↔ ¬Apart edits := by
  rw [Apart, List.pairwise_iff_getElem]
  constructor
  · rintro ⟨i, j, a, b, before, first, second, overlaps⟩ apart
    obtain ⟨iBound, rfl⟩ := List.getElem?_eq_some_iff.mp first
    obtain ⟨jBound, rfl⟩ := List.getElem?_eq_some_iff.mp second
    have := apart i j iBound jBound before
    omega
  · intro notApart
    refine Classical.byContradiction fun none => notApart fun i j iBound jBound before => ?_
    refine Nat.not_lt.mp fun overlaps => none ?_
    exact ⟨i, j, edits[i], edits[j], before, List.getElem?_eq_getElem iBound,
      List.getElem?_eq_getElem jBound, overlaps⟩

/-- An edit is put behind those that come strictly before it and in front of all others. -/
theorem insert_append {edit : Edit} {front back : List Edit}
    (before : ∀ e ∈ front, edit.span.precedes e.span = false)
    (behind : ∀ e ∈ back, edit.span.precedes e.span = true) :
    insert edit (front ++ back) = front ++ edit :: back := by
  induction front with
  | nil =>
    cases back with
    | nil => rfl
    | cons other more => simp [insert, behind other List.mem_cons_self]
  | cons other front ih =>
    obtain ⟨own, before⟩ := List.forall_mem_cons.mp before
    simp [insert, own, ih before]

theorem arranged_eq_bySpan (edits : List Edit) : arranged edits = bySpan edits := by
  have trans := fun a b c : Edit => Span.precedes_trans a.span b.span c.span
  have total := fun a b : Edit => Span.precedes_total a.span b.span
  induction edits with
  | nil => simp [arranged, bySpan]
  | cons edit more ih =>
    obtain ⟨front, back, whole, rest, before⟩ := List.mergeSort_cons trans total edit more
    have sorted := List.pairwise_mergeSort trans total (edit :: more)
    rw [whole] at sorted
    rw [arranged, ih, bySpan, bySpan, rest, whole]
    refine insert_append (fun e mem => by simpa using before e mem) ?_
    exact (List.pairwise_cons.mp (List.pairwise_append.mp sorted).2.1).1

theorem take_foldr_apply {k : Nat} (inside : k ≤ source.length) (later : ∀ e ∈ edits, k ≤ e.span.start) :
    (edits.foldr apply source).take k = source.take k := by
  induction edits with
  | nil => rfl
  | cons edit more ih =>
    obtain ⟨own, later⟩ := List.forall_mem_cons.mp later
    exact take_replaced (ih later) inside own

/-- Edits that can be spliced in from a cursor begin there or later, one behind the other. -/
theorem apart_of_splice {cursor : Nat} (order : ∀ e ∈ edits, e.span.start ≤ e.span.stop)
    (ok : splice source cursor edits = .ok out) : (∀ e ∈ edits, cursor ≤ e.span.start) ∧ Apart edits := by
  induction edits generalizing cursor out with
  | nil => exact ⟨by simp, .nil⟩
  | cons edit more ih =>
    obtain ⟨own, rest, tail, -⟩ := splice_cons_ok.mp ok
    obtain ⟨ownOrder, order⟩ := List.forall_mem_cons.mp order
    obtain ⟨later, apart⟩ := ih order tail
    refine ⟨List.forall_mem_cons.mpr ⟨own, fun e mem => ?_⟩, List.pairwise_cons.mpr ⟨later, apart⟩⟩
    exact Nat.le_trans own (Nat.le_trans ownOrder (later e mem))

/-- From a cursor on, the pass gives what the edits made one by one give there. -/
theorem splice_of_apart {cursor : Nat} (within : ∀ e ∈ edits, e.Within source) (apart : Apart edits)
    (later : ∀ e ∈ edits, cursor ≤ e.span.start) :
    splice source cursor edits = .ok ((edits.foldr apply source).drop cursor) := by
  induction edits generalizing cursor with
  | nil => rfl
  | cons edit more ih =>
    obtain ⟨behind, apart⟩ := List.pairwise_cons.mp apart
    obtain ⟨⟨order, bound⟩, within⟩ := List.forall_mem_cons.mp within
    have own := later edit List.mem_cons_self
    refine splice_cons_ok.mpr ⟨own, _, ih within apart behind, ?_⟩
    have before : (more.foldr apply source).take edit.span.start = source.take edit.span.start :=
      take_foldr_apply (Nat.le_trans order bound) fun e mem => Nat.le_trans order (behind e mem)
    rw [List.foldr_cons, apply, before, List.append_assoc,
      List.drop_append_of_le_length (by simp; omega), Text.slice, List.append_assoc]

/-- All edits of a source are refused exactly where two of them clash in the order of their spans. Otherwise
the output is the source with the edits made one by one, the last one first. -/
theorem applyAll_eq_foldr_apply (within : ∀ e ∈ edits, e.Within source) :
    ((∃ overlap, applyAll source edits = .error overlap) ↔ Clashing (bySpan edits)) ∧
    (¬Clashing (bySpan edits) → applyAll source edits = .ok ((bySpan edits).foldr apply source)) := by
  have inside : ∀ e ∈ bySpan edits, e.Within source := fun e mem => within e (List.mem_mergeSort.mp mem)
  have spliced : Apart (bySpan edits) → applyAll source edits = .ok ((bySpan edits).foldr apply source) := by
    intro apart
    rw [applyAll, arranged_eq_bySpan, splice_of_apart inside apart fun e _ => Nat.zero_le _, List.drop_zero]
  rw [clashing_iff, Classical.not_not]
  refine ⟨⟨?_, ?_⟩, spliced⟩
  · rintro ⟨overlap, refused⟩ apart
    rw [spliced apart] at refused
    cases refused
  · intro notApart
    cases outcome : applyAll source edits with
    | error overlap => exact ⟨overlap, rfl⟩
    | ok out =>
      rw [applyAll, arranged_eq_bySpan] at outcome
      exact absurd (apart_of_splice (fun e mem => (inside e mem).order) outcome).2 notApart

/-- Edits that come in another order than their spans, two of which meet in one place. -/
theorem applyAll_meeting :
    let source := "aaa bbb ccc".codePoints
    let edits : List Edit := [⟨⟨8, 11⟩, [.char 'Z']⟩, ⟨⟨3, 4⟩, []⟩, ⟨⟨3, 3⟩, [.char '-']⟩, ⟨⟨0, 3⟩, [.char 'X']⟩]
    (∀ e ∈ edits, e.Within source) ∧ ¬Clashing (bySpan edits) ∧
      applyAll source edits = .ok ((bySpan edits).foldr apply source) ∧
      (bySpan edits).foldr apply source = "X-bbb Z".codePoints := by
  intro source edits
  have within : ∀ e ∈ edits, e.Within source := by decide
  have calm : ¬Clashing (bySpan edits) := by
    rw [clashing_iff, Classical.not_not, ← arranged_eq_bySpan, Apart]
    decide
  refine ⟨within, calm, (applyAll_eq_foldr_apply within).2 calm, ?_⟩
  rw [← arranged_eq_bySpan]
  decide

end Edit

end ClassMigration
