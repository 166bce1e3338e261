import Mathlib.Algebra.Ring.Int.Defs
import ClassMigration.Proofs.Splicing

/-! Edits taken back. Every edit of a source has its counterpart in the output: the range that its text has
come to, with what the edit had replaced. These counterparts are apart and in order again, and made on the
output they give the source. -/
namespace ClassMigration.Edit

/-- The number of characters by which an edit lengthens its source; less than zero where it shortens it. -/
def growth (edit : Edit) : Int := edit.text.length - (edit.span.stop - edit.span.start : Int)

/-- By how much the edits before the one at `i` move it. -/
def shift (edits : List Edit) (i : Nat) : Int := ((edits.take i).map growth).sum

/-- The edit that takes another one back, which the edits before it have moved. -/
def inverse (source : Text) (moved : Int) (edit : Edit) : Edit where
  span := ⟨(edit.span.start + moved).toNat, (edit.span.start + moved + edit.text.length).toNat⟩
  text := edit.span.text source

/-- The edits that take back edits in the order of their spans. -/
def inverses (source : Text) (edits : List Edit) : List Edit :=
  edits.mapIdx fun i edit => inverse source (shift edits i) edit

/-- The same edits where the whole has been moved already. -/
def inversesFrom (source : Text) (moved : Int) (edits : List Edit) : List Edit :=
  edits.mapIdx fun i edit => inverse source (moved + shift edits i) edit

variable {source out : Text} {edits : List Edit}

@[simp] theorem shift_zero (edits : List Edit) : shift edits 0 = 0 := rfl

@[simp] theorem shift_succ (edit : Edit) (more : List Edit) (i : Nat) :
    shift (edit :: more) (i + 1) = edit.growth + shift more i := by
  simp [shift]

theorem inversesFrom_zero (source : Text) (edits : List Edit) :
    inversesFrom source 0 edits = inverses source edits := by
  simp [inversesFrom, inverses]

theorem inversesFrom_cons (source : Text) (moved : Int) (edit : Edit) (more : List Edit) :
    inversesFrom source moved (edit :: more) =
      inverse source moved edit :: inversesFrom source (moved + edit.growth) more := by
  simp [inversesFrom, List.mapIdx_cons, Int.add_assoc]

theorem apart_of_sorted (order : ∀ e ∈ edits, e.span.start ≤ e.span.stop)
    (sorted : edits.Pairwise fun a b => a.span.precedes b.span)
    (disjoint : edits.Pairwise fun a b => a.span.stop ≤ b.span.start ∨ b.span.stop ≤ a.span.start) :
    Apart edits := by
  refine (sorted.and disjoint).imp_of_mem ?_
  rintro a b first second ⟨precedes, disjoint⟩
  have := order a first
  have := order b second
  rw [Span.precedes_iff] at precedes
  omega

theorem sorted_of_apart (order : ∀ e ∈ edits, e.span.start ≤ e.span.stop) (apart : Apart edits) :
    edits.Pairwise fun a b => a.span.precedes b.span := by
  refine apart.imp_of_mem ?_
  intro a b first second behind
  have := order a first
  have := order b second
  rw [Span.precedes_iff]
  omega

theorem arranged_of_sorted (sorted : edits.Pairwise fun a b => a.span.precedes b.span) :
    arranged edits = edits := by
  rw [arranged_eq_bySpan]
  exact List.mergeSort_of_pairwise sorted

theorem Within.length_slice {edit : Edit} {cursor : Nat} (within : edit.Within source)
    (later : cursor ≤ edit.span.start) :
    (source.slice cursor edit.span.start).length = edit.span.start - cursor := by
  have := within.order
  have := within.bound
  rw [Text.length_slice]
  omega

/-- Where the output goes on at `place` as the source, moved, goes on at the cursor, the pass over the
counterparts gives the source from the cursor on. -/
theorem splice_inversesFrom (cursor place : Nat) (moved : Int) (within : ∀ e ∈ edits, e.Within source)
    (there : (place : Int) = cursor + moved) (ok : splice source cursor edits = .ok (out.drop place)) :
    splice out place (inversesFrom source moved edits) = .ok (source.drop cursor) := by
  induction edits generalizing cursor place moved with
  | nil =>
    have same : source.drop cursor = out.drop place := by simpa [splice] using ok
    rw [same]
    rfl
  | cons edit more ih =>
    obtain ⟨later, rest, tail, written⟩ := splice_cons_ok.mp ok
    obtain ⟨own, within⟩ := List.forall_mem_cons.mp within
    have order := own.order
    have copied := own.length_slice later
    -- the range of the output that holds the edit's text
    obtain ⟨start, atStart⟩ : ∃ start : Nat, (start : Int) = edit.span.start + moved :=
      ⟨place + (edit.span.start - cursor), by omega⟩
    have reached : place ≤ start := by omega
    have span : (inverse source moved edit).span = ⟨start, start + edit.text.length⟩ := by
      simp only [inverse, Span.mk.injEq]
      omega
    have before : out.slice place start = source.slice cursor edit.span.start := by
      rw [Text.slice, List.drop_take, written, List.append_assoc]
      exact List.take_left' (by omega)
    have behind : out.drop (start + edit.text.length) = rest := by
      have split : start + edit.text.length =
          place + (source.slice cursor edit.span.start ++ edit.text).length := by
        rw [List.length_append]
        omega
      rw [split, ← List.drop_drop, written, List.drop_left]
    have moves : ((start + edit.text.length : Nat) : Int) = edit.span.stop + (moved + edit.growth) := by
      rw [growth]
      omega
    have others :=
      ih edit.span.stop (start + edit.text.length) (moved + edit.growth) within moves (behind ▸ tail)
    rw [inversesFrom_cons]
    refine splice_cons_ok.mpr ⟨by rw [span]; exact reached, source.drop edit.span.stop, ?_, ?_⟩
    · rw [span]
      exact others
    · rw [span, before, inverse, Span.text, List.append_assoc, Text.slice_append_drop order,
        Text.slice_append_drop later]

theorem inverse_place {i : Nat} {edit : Edit} (cursor : Nat) (moved : Int)
    (within : ∀ e ∈ edits, e.Within source) (apart : Apart edits) (later : ∀ e ∈ edits, cursor ≤ e.span.start)
    (there : 0 ≤ cursor + moved) (found : edits[i]? = some edit) :
    0 ≤ edit.span.start + (moved + shift edits i) := by
  induction edits generalizing i cursor moved with
  | nil => simp at found
  | cons first more ih =>
    obtain ⟨⟨order, -⟩, within⟩ := List.forall_mem_cons.mp within
    have own := later first List.mem_cons_self
    obtain ⟨behind, apart⟩ := List.pairwise_cons.mp apart
    cases i with
    | zero =>
      obtain rfl : first = edit := by simpa using found
      rw [shift_zero]
      omega
    | succ i =>
      have next : 0 ≤ (first.span.stop : Int) + (moved + first.growth) := by
        rw [growth]
        omega
      have rest := ih first.span.stop (moved + first.growth) within apart behind next (by simpa using found)
      rw [shift_succ]
      omega

/-- Edits in range that share no character, given in the order of their spans, are made and can be taken
back: each counterpart stands in the output, and all of them made on it give the source. -/
theorem applyAll_inverses (within : ∀ e ∈ edits, e.Within source)
    (sorted : edits.Pairwise fun a b => a.span.precedes b.span)
    (disjoint : edits.Pairwise fun a b => a.span.stop ≤ b.span.start ∨ b.span.stop ≤ a.span.start) :
    (∀ i edit, edits[i]? = some edit → 0 ≤ edit.span.start + shift edits i) ∧
    ∃ out, applyAll source edits = .ok out ∧ applyAll out (inverses source edits) = .ok source := by
  have apart := apart_of_sorted (fun e mem => (within e mem).order) sorted disjoint
  have fromStart : ∀ e ∈ edits, 0 ≤ e.span.start := fun _ _ => Nat.zero_le _
  have made := splice_of_apart within apart fromStart
  rw [List.drop_zero] at made
  refine ⟨fun i edit found => ?_, edits.foldr apply source, ?_, ?_⟩
  · have place := inverse_place 0 0 within apart fromStart (by simp) found
    rwa [Int.zero_add] at place
  · rw [applyAll, arranged_of_sorted sorted]
    exact made
  · have back := splice_inversesFrom 0 0 0 within rfl (by simpa using made)
    rw [inversesFrom_zero, List.drop_zero] at back
    have order : ∀ e ∈ inverses source edits, e.span.start ≤ e.span.stop := by
      intro e mem
      obtain ⟨i, bound, rfl⟩ := List.mem_mapIdx.mp mem
      simp only [inverse]
      omega
    rw [applyAll, arranged_of_sorted (sorted_of_apart order (apart_of_splice order back).2)]
    exact back

/-- Two deletions and an insertion that meet in one place, and a change behind them that they move. -/
theorem applyAll_inverses_meeting :
    let source := "abcdef".codePoints
    let edits : List Edit :=
      [⟨⟨1, 3⟩, []⟩, ⟨⟨3, 3⟩, "xy".codePoints⟩, ⟨⟨3, 4⟩, []⟩, ⟨⟨5, 6⟩, "z".codePoints⟩]
    (∀ e ∈ edits, e.Within source) ∧ shift edits 1 = -2 ∧
      inverses source edits =
        [⟨⟨1, 1⟩, "bc".codePoints⟩, ⟨⟨1, 3⟩, []⟩, ⟨⟨3, 3⟩, "d".codePoints⟩, ⟨⟨4, 5⟩, "f".codePoints⟩] ∧
      ∃ out, applyAll source edits = .ok out ∧ applyAll out (inverses source edits) = .ok source := by
  intro source edits
  have within : ∀ e ∈ edits, e.Within source := by decide
  exact ⟨within, by decide, by decide, (applyAll_inverses within (by decide) (by decide)).2⟩

end ClassMigration.Edit
