import Mathlib.Data.List.Forall2

/-! Listings of what stands in a tree, in document order: an outer node before the nodes in it, and these
from first to last. -/
namespace ClassMigration

/-- The way to a node of a tree, the number of a part at every level. Addresses compare as lists do, so
that a node comes before its parts and whatever is in one part before whatever is in a later one. -/
abbrev Address := List Nat

/-- All that stands anywhere, each at an address of its own and in the order of the addresses. -/
def InOrder {α : Type} (stands : Address → α → Prop) (listing : List α) : Prop :=
  ∃ sites : List (Address × α),
    sites.Pairwise (·.1 < ·.1) ∧
    (∀ address a, (address, a) ∈ sites ↔ stands address a) ∧
    sites.map Prod.snd = listing

namespace InOrder

variable {α β : Type} {stands others : Address → α → Prop} {listing : List α}

theorem congr (inOrder : InOrder stands listing)
    (same : ∀ address a, stands address a ↔ others address a) : InOrder others listing := by
  obtain ⟨sites, ascending, exact, listed⟩ := inOrder
  exact ⟨sites, ascending, fun address a => (exact address a).trans (same address a), listed⟩

theorem nil (nothing : ∀ address a, ¬ stands address a) : InOrder stands [] :=
  ⟨[], .nil, fun address a => iff_of_false List.not_mem_nil (nothing address a), rfl⟩

theorem filterMap (inOrder : InOrder stands listing) (pick : α → Option β) :
    InOrder (fun address b => ∃ a, stands address a ∧ pick a = some b) (listing.filterMap pick) := by
  obtain ⟨sites, ascending, exact, rfl⟩ := inOrder
  refine ⟨sites.filterMap fun site => (pick site.2).map (site.1, ·), ?_, fun address b => ?_, ?_⟩
  · refine List.pairwise_filterMap.mpr (ascending.imp ?_)
    intro site site' less found isFound found' isFound'
    obtain ⟨b, -, rfl⟩ := Option.map_eq_some_iff.mp isFound
    obtain ⟨b', -, rfl⟩ := Option.map_eq_some_iff.mp isFound'
    exact less
  · simp only [List.mem_filterMap, Option.map_eq_some_iff, Prod.mk.injEq]
    constructor
    · rintro ⟨site, mem, b, picked, rfl, rfl⟩
      exact ⟨site.2, (exact _ _).mp mem, picked⟩
    · rintro ⟨a, isThere, picked⟩
      exact ⟨(address, a), (exact _ _).mpr isThere, b, picked, rfl, rfl⟩
  · rw [List.map_filterMap, List.filterMap_map]
    simp [Function.comp_def, Option.map_map]

theorem node (own : Option α) (inner : InOrder stands listing) (below : ∀ a, ¬ stands [] a) :
    InOrder (fun address a => address = [] ∧ own = some a ∨ stands address a)
      (own.toList ++ listing) := by
  obtain ⟨sites, ascending, exact, rfl⟩ := inner
  cases own with
  | none =>
    refine ⟨sites, ascending, fun address a => ?_, rfl⟩
    simp [exact]
  | some root =>
    refine ⟨([], root) :: sites, List.pairwise_cons.mpr ⟨?_, ascending⟩, fun address a => ?_, rfl⟩
    · rintro ⟨address, a⟩ mem
      cases address with
      | nil => exact absurd ((exact _ _).mp mem) (below a)
      | cons => exact List.nil_lt_cons _ _
    · simp [exact, eq_comm]

/-- Parts from a number on come one after the other, all that stands in one before all in the next. -/
theorem parts_from {nodes : List β} {listings : List (List α)} {within : β → Address → α → Prop}
    (first : Nat) (each : List.Forall₂ (fun part => InOrder (within part)) nodes listings) :
    InOrder (fun address a => ∃ i rest part, address = (first + i) :: rest ∧ nodes[i]? = some part ∧
      within part rest a) listings.flatten := by
  induction each generalizing first with
  | nil =>
    apply nil
    rintro address a ⟨i, rest, part, -, found, -⟩
    cases found
  | @cons part listing nodes listings own _ ih =>
    obtain ⟨sites, ascending, exact, rfl⟩ := own
    obtain ⟨later, laterAscending, laterExact, listed⟩ := ih (first + 1)
    refine ⟨sites.map (fun site => (first :: site.1, site.2)) ++ later, ?_, fun address a => ?_, ?_⟩
    · refine List.pairwise_append.mpr ⟨?_, laterAscending, ?_⟩
      · apply List.pairwise_map.mpr
        exact ascending.imp fun less => List.cons_lt_cons_iff.mpr (.inr ⟨rfl, less⟩)
      · rintro _ early ⟨address, a⟩ late
        obtain ⟨site, -, rfl⟩ := List.mem_map.mp early
        obtain ⟨i, rest, part, rfl, -⟩ := (laterExact _ _).mp late
        exact List.cons_lt_cons_iff.mpr (.inl (by omega))
    · rw [List.mem_append, laterExact, List.mem_map]
      constructor
      · rintro (⟨site, mem, same⟩ | ⟨i, rest, other, rfl, found, stands⟩)
        · obtain ⟨rfl, rfl⟩ := Prod.mk.inj same
          exact ⟨0, site.1, part, rfl, rfl, (exact _ _).mp mem⟩
        · exact ⟨i + 1, rest, other, by rw [Nat.add_right_comm, Nat.add_assoc], found, stands⟩
      · rintro ⟨i, rest, other, rfl, found, stands⟩
        cases i with
        | zero =>
          obtain rfl := Option.some.inj found
          exact .inl ⟨(rest, a), (exact _ _).mpr stands, rfl⟩
        | succ i => exact .inr ⟨i, rest, other, by rw [Nat.add_right_comm, Nat.add_assoc], found, stands⟩
    · rw [List.map_append, listed, List.map_map, List.flatten_cons]
      rfl

theorem parts {nodes : List β} {listings : List (List α)} {within : β → Address → α → Prop}
    (each : List.Forall₂ (fun part => InOrder (within part)) nodes listings) :
    InOrder (fun address a => ∃ i rest part, address = i :: rest ∧ nodes[i]? = some part ∧
      within part rest a) listings.flatten :=
  (parts_from 0 each).congr fun address a => by simp only [Nat.zero_add]

end InOrder

end ClassMigration
