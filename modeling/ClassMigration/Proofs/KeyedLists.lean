import Mathlib.Data.List.Count
import Mathlib.Data.List.Nodup

/-! Lists whose items have a key each that no other item has. A search by a key finds the one item there is. -/
namespace ClassMigration

section Keyed

variable {α β : Type} {key : α → β} {l : List α} {a : α} {b : β}

/-- No item at the end repeats a key exactly if its own is new there. -/
theorem nodup_map_concat_iff : ((l ++ [a]).map key).Nodup ↔ (l.map key).Nodup ∧ key a ∉ l.map key := by
  rw [List.map_append, List.map_singleton, ← List.concat_eq_append, List.nodup_concat, and_comm]

theorem find?_eq_some_iff_of_nodup [BEq β] [LawfulBEq β] (distinct : (l.map key).Nodup) :
    l.find? (key · == b) = some a ↔ a ∈ l ∧ key a = b := by
  constructor
  · exact fun found => ⟨List.mem_of_find?_eq_some found, by simpa using List.find?_some found⟩
  · rintro ⟨mem, rfl⟩
    cases found : l.find? (key · == key a) with
    | none => simpa using List.find?_eq_none.mp found a mem
    | some other =>
      have same : key other = key a := by simpa using List.find?_some found
      rw [List.inj_on_of_nodup_map distinct (List.mem_of_find?_eq_some found) mem same]

theorem countP_le_one_of_unique {check : α → Bool} (distinct : l.Nodup)
    (unique : ∀ a ∈ l, ∀ a' ∈ l, check a → check a' → a = a') : l.countP check ≤ 1 := by
  have passed : ∀ a ∈ l.filter check, a ∈ l ∧ check a := fun a mem => List.mem_filter.mp mem
  have apart : (l.filter check).Nodup := distinct.filter check
  rw [List.countP_eq_length_filter]
  generalize l.filter check = found at passed apart ⊢
  rcases found with _ | ⟨a, _ | ⟨a', more⟩⟩
  · exact Nat.zero_le 1
  · exact Nat.le_refl 1
  · obtain ⟨mem, pass⟩ := passed a List.mem_cons_self
    obtain ⟨mem', pass'⟩ := passed a' (List.mem_cons_of_mem a List.mem_cons_self)
    have same := unique a mem a' mem' pass pass'
    exact absurd (same ▸ List.mem_cons_self) (List.nodup_cons.mp apart).1

theorem countP_le_one_of_nodup [DecidableEq β] (distinct : (l.map key).Nodup) (b : β) :
    l.countP (key · = b) ≤ 1 := by
  refine countP_le_one_of_unique distinct.of_map fun a mem a' mem' own own' => ?_
  exact List.inj_on_of_nodup_map distinct mem mem' ((of_decide_eq_true own).trans (of_decide_eq_true own').symm)

theorem count_flatMap_of_nodup [BEq β] [LawfulBEq β] {f : α → List β} (distinct : l.Nodup) (mem : a ∈ l)
    (others : ∀ a' ∈ l, b ∈ f a' → a' = a) : (l.flatMap f).count b = (f a).count b := by
  obtain ⟨front, back, rfl⟩ := List.append_of_mem mem
  have alone : a ∉ front ++ back := (List.nodup_middle.mp distinct).notMem
  simp only [List.mem_append, not_or] at alone
  have none (part : List α) (inside : ∀ a' ∈ part, a' ∈ front ++ a :: back) (free : a ∉ part) :
      (part.flatMap f).count b = 0 := by
    refine List.count_eq_zero.mpr fun found => ?_
    obtain ⟨a', mem', given⟩ := List.mem_flatMap.mp found
    exact free (others a' (inside a' mem') given ▸ mem')
  rw [List.flatMap_append, List.flatMap_cons, List.count_append, List.count_append,
    none front (by simp +contextual) alone.1, none back (by simp +contextual) alone.2, Nat.zero_add, Nat.add_zero]

end Keyed

end ClassMigration
