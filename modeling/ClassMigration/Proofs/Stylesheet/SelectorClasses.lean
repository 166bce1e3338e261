import ClassMigration.Proofs.Stylesheet.Mentions

/-! The classes of a selector by their places. A selector is read part by part, each part takes one, two or three
values, and every value falls to one part. So a dot directly before a name is never passed over, and the classes
are those of such dots, at the top and in the functions behind colons, in the order in which they are written. -/
namespace ClassMigration.Stylesheet

namespace Part

/-- The values that a part of a selector takes: one by itself, a dot and a name, or what colons name. -/
inductive Takes (index : LineIndex) : Part → List Value → Prop
  | alone (value : Value) : Takes index (single index value) [value]
  | named {dot following : Value} {part : Part} : dot.isMark "." → class? index dot following = some part →
      Takes index part [dot, following]
  | pseudo {colon target : Value} {part : Part} : colon.isMark ":" →
      pseudo? index (index.offset colon.place) target = some part → Takes index part [colon, target]
  | doubled {colon second target : Value} {part : Part} : colon.isMark ":" → second.isMark ":" →
      pseudo? index (index.offset colon.place) target = some part → Takes index part [colon, second, target]

theorem Takes.length {part : Part} {group : List Value} (takes : Takes index part group) :
    0 < group.length ∧ group.length ≤ 3 := by
  cases takes <;> simp

/-- The first part of a selector takes the first values, and the other parts are read from what it leaves. -/
theorem exists_first (index : LineIndex) (value : Value) (more : List Value) : ∃ part group rest,
    Takes index part group ∧ value :: more = group ++ rest ∧
      ofValues index (value :: more) = part :: ofValues index rest := by
  rcases more with _ | ⟨second, more⟩
  · exact ⟨_, _, [], .alone value, rfl, by rw [ofValues, ofValues]⟩
  rw [ofValues.eq_def index (value :: second :: more)]
  dsimp only
  by_cases dot : value.isMark "."
  · rw [if_pos dot]
    cases found : class? index value second with
    | some part => exact ⟨part, _, more, .named dot found, rfl, rfl⟩
    | none => exact ⟨_, _, _, .alone value, rfl, rfl⟩
  rw [if_neg dot]
  by_cases colon : value.isMark ":"
  · rw [if_pos colon]
    by_cases again : second.isMark ":"
    · rw [if_pos again]
      rcases more with _ | ⟨third, rest⟩
      · exact ⟨_, _, [second], .alone value, rfl, by rw [ofValues]⟩
      · dsimp only
        cases found : pseudo? index (index.offset value.place) third with
        | some part => exact ⟨part, _, rest, .doubled colon again found, rfl, rfl⟩
        | none => exact ⟨_, _, _, .alone value, rfl, rfl⟩
    · rw [if_neg again]
      cases found : pseudo? index (index.offset value.place) second with
      | some part => exact ⟨part, _, more, .pseudo colon found, rfl, rfl⟩
      | none => exact ⟨_, _, _, .alone value, rfl, rfl⟩
  · rw [if_neg colon]
    exact ⟨_, _, _, .alone value, rfl, rfl⟩

theorem exists_groups (index : LineIndex) (values : List Value) : ∃ groups : List (List Value),
    groups.flatten = values ∧ List.Forall₂ (Takes index) (ofValues index values) groups := by
  rcases values with _ | ⟨value, more⟩
  · exact ⟨[], rfl, by rw [ofValues]; exact .nil⟩
  obtain ⟨part, group, rest, takes, cut, parts⟩ := exists_first index value more
  have shorter : rest.length < (value :: more).length := by
    have pos := takes.length.1
    rw [cut, List.length_append]
    omega
  obtain ⟨groups, whole, all⟩ := exists_groups index rest
  refine ⟨group :: groups, by rw [List.flatten_cons, whole, cut], ?_⟩
  rw [parts]
  exact .cons takes all
termination_by values.length
decreasing_by exact shorter

end Part

namespace Value

mutual

/-- The selected names of a value, each with the way to it from there. -/
def waysIn (before : Seen) : Value → List (List Nat × Mention)
  | token p (.ident name) => match before with
    | .dot d => [([], ⟨d, p, name⟩)]
    | _ => []
  | token _ _ => []
  | function _ _ arguments => match before with
    | .colon => waysOf 0 .other arguments
    | _ => []
  | block .. => []

/-- The selected names of values that are numbered from `i` on. -/
def waysOf (i : Nat) (before : Seen) : List Value → List (List Nat × Mention)
  | [] => []
  | v :: more => (waysIn before v).map (fun found => (i :: found.1, found.2)) ++ waysOf (i + 1) (seen v) more

end

mutual

theorem map_snd_waysIn (before : Seen) : (v : Value) → (waysIn before v).map Prod.snd = selected before v
  | token p l => by
    cases l with
    | ident name => cases before <;> rfl
    | _ => rfl
  | function p name arguments => by
    cases before with
    | colon => exact map_snd_waysOf 0 .other arguments
    | _ => rfl
  | block .. => rfl

theorem map_snd_waysOf (i : Nat) (before : Seen) :
    (vs : List Value) → (waysOf i before vs).map Prod.snd = selectedOf before vs
  | [] => rfl
  | v :: more => by
    rw [waysOf, selectedOf, List.map_append, List.map_map, ← map_snd_waysIn before v,
      ← map_snd_waysOf (i + 1) (seen v) more]
    rfl

end

theorem le_of_mem_waysOf {i : Nat} {before : Seen} {vs : List Value} {found : List Nat × Mention}
    (mem : found ∈ waysOf i before vs) : ∃ j way, found.1 = j :: way ∧ i ≤ j := by
  induction vs generalizing i before with
  | nil => cases mem
  | cons v more ih =>
    rcases List.mem_append.mp mem with own | later
    · obtain ⟨inner, -, rfl⟩ := List.mem_map.mp own
      exact ⟨i, inner.1, rfl, Nat.le_refl i⟩
    · obtain ⟨j, way, same, le⟩ := ih later
      exact ⟨j, way, same, by omega⟩

mutual

theorem waysIn_ascending (before : Seen) : (v : Value) → (waysIn before v).Pairwise fun a b => a.1 < b.1
  | token p l => by
    cases l with
    | ident name => cases before <;> simp [waysIn]
    | _ => exact .nil
  | function p name arguments => by
    cases before with
    | colon => exact waysOf_ascending 0 .other arguments
    | _ => exact .nil
  | block .. => .nil

theorem waysOf_ascending (i : Nat) (before : Seen) :
    (vs : List Value) → (waysOf i before vs).Pairwise fun a b => a.1 < b.1
  | [] => .nil
  | v :: more => by
    apply List.pairwise_append.mpr
    refine ⟨?own, waysOf_ascending (i + 1) (seen v) more, ?across⟩
    case own =>
      apply List.pairwise_map.mpr
      apply (waysIn_ascending before v).imp
      intro a b less
      exact List.cons_lt_cons_iff.mpr (.inr ⟨rfl, less⟩)
    case across =>
      intro a mem b mem'
      obtain ⟨inner, -, rfl⟩ := List.mem_map.mp mem
      obtain ⟨j, way, same, le⟩ := le_of_mem_waysOf mem'
      rw [same]
      exact List.cons_lt_cons_iff.mpr (.inl le)

end

theorem mem_waysOf {i : Nat} {before : Seen} {vs : List Value} {way : List Nat} {m : Mention} :
    (way, m) ∈ waysOf i before vs ↔
      (∃ v w, vs[0]? = some v ∧ way = i :: w ∧ (w, m) ∈ waysIn before v) ∨
      ∃ j u v w, vs[j]? = some u ∧ vs[j + 1]? = some v ∧ way = (i + j + 1) :: w ∧ (w, m) ∈ waysIn (seen u) v := by
  induction vs generalizing i before with
  | nil => simp [waysOf]
  | cons first more ih =>
    have own : (way, m) ∈ (waysIn before first).map (fun found => (i :: found.1, found.2)) ↔
        ∃ w, way = i :: w ∧ (w, m) ∈ waysIn before first := by
      simp [List.mem_map, eq_comm, and_comm]
    rw [waysOf, List.mem_append, own, ih]
    constructor
    · rintro (⟨w, rfl, here⟩ | ⟨v, w, next, rfl, here⟩ | ⟨j, u, v, w, prior, next, rfl, here⟩)
      · exact .inl ⟨first, w, rfl, rfl, here⟩
      · exact .inr ⟨0, first, v, w, rfl, next, rfl, here⟩
      · exact .inr ⟨j + 1, u, v, w, prior, next, by simp; omega, here⟩
    · rintro (⟨v, w, head, rfl, here⟩ | ⟨j, u, v, w, prior, next, rfl, here⟩)
      · cases head
        exact .inl ⟨w, rfl, here⟩
      · cases j with
        | zero =>
          cases prior
          exact .inr (.inl ⟨v, w, next, rfl, here⟩)
        | succ j => exact .inr (.inr ⟨j, u, v, w, prior, next, by simp; omega, here⟩)

theorem waysIn_other (v : Value) : waysIn .other v = [] := by
  cases v with
  | token p l => cases l <;> rfl
  | function => rfl
  | block => rfl

theorem mem_waysOf_other {vs : List Value} {way : List Nat} {m : Mention} :
    (way, m) ∈ waysOf 0 .other vs ↔ ∃ j u v w, vs[j]? = some u ∧ vs[j + 1]? = some v ∧
      way = (j + 1) :: w ∧ (w, m) ∈ waysIn (seen u) v := by
  rw [mem_waysOf]
  simp [waysIn_other]

theorem eq_of_seen_dot {v : Value} {p : Position} (same : seen v = .dot p) : v = .token p (.mark [.char '.']) := by
  unfold seen at same
  split at same
  · cases same; rfl
  · cases same
  · cases same

theorem isMark_of_seen_colon {v : Value} (same : seen v = .colon) : v.isMark ":" = true := by
  unfold seen at same
  split at same
  · cases same
  · rfl
  · cases same

end Value

/-- A class among values, with the way to its name: the number of the name, directly behind a dot, or the number of
a function directly behind a colon, and the way among its arguments. -/
inductive ClassAt (index : LineIndex) : List Value → List Nat → ClassPart → Prop
  | named {values : List Value} {i : Nat} {dot following : Value} {name : Text} :
      values[i]? = some dot → dot.isMark "." → values[i + 1]? = some following → following.ident? = some name →
      index.offset following.place = index.offset dot.place + 1 →
      ClassAt index values [i + 1]
        ⟨name, ⟨index.offset dot.place, index.offset dot.place + 1 + following.serialized.length⟩⟩
  | inside {values arguments : List Value} {i : Nat} {colon : Value} {place : Position} {name : Text}
      {way : List Nat} {found : ClassPart} :
      values[i]? = some colon → colon.isMark ":" → values[i + 1]? = some (.function place name arguments) →
      ClassAt index arguments way found → ClassAt index values ((i + 1) :: way) found

open Value

variable {index : LineIndex}

theorem classAt_iff {vs : List Value} {way : List Nat} {c : ClassPart} :
    ClassAt index vs way c ↔
      ∃ m, (way, m) ∈ waysOf 0 .other vs ∧ m.joined index = true ∧ m.part index = c := by
  constructor
  · intro found
    induction found with
    | @named vs i dot following name first isDot next ident adjacent =>
      obtain ⟨d, rfl⟩ := eq_of_isMark isDot
      obtain ⟨p, rfl⟩ : ∃ p, following = .token p (.ident name) := by
        rcases ident_or following with ⟨p, n, rfl⟩ | ⟨none, -⟩
        · exact ⟨p, by cases ident; rfl⟩
        · rw [none] at ident
          cases ident
      refine ⟨⟨d, p, name⟩, ?_, beq_iff_eq.mpr adjacent, rfl⟩
      exact mem_waysOf_other.mpr ⟨i, _, _, [], first, next, rfl, List.mem_singleton.mpr rfl⟩
    | @inside vs arguments i colon place name way found first isColon next _ ih =>
      obtain ⟨m, mem, joined, same⟩ := ih
      obtain ⟨q, rfl⟩ := eq_of_isMark isColon
      exact ⟨m, mem_waysOf_other.mpr ⟨i, _, _, way, first, next, rfl, mem⟩, joined, same⟩
  · rintro ⟨m, mem, joined, rfl⟩
    induction way generalizing vs with
    | nil => obtain ⟨_, _, _, _, -, -, same, -⟩ := mem_waysOf_other.mp mem; cases same
    | cons k way ih =>
      obtain ⟨j, u, v, w, first, next, same, inner⟩ := mem_waysOf_other.mp mem
      obtain ⟨rfl, rfl⟩ := List.cons.inj same
      cases v with
      | token p l =>
        cases l with
        | ident name =>
          cases before : seen u with
          | dot d =>
            rw [before] at inner
            obtain rfl := eq_of_seen_dot before
            cases List.mem_singleton.mp inner
            exact .named first rfl next rfl (beq_iff_eq.mp joined)
          | _ => rw [before] at inner; cases inner
        | _ => cases inner
      | function place name arguments =>
        cases before : seen u with
        | colon =>
          rw [before] at inner
          exact .inside first (isMark_of_seen_colon before) next (ih inner)
        | _ => rw [before] at inner; cases inner
      | block => cases inner

/-- The classes of a selector are those of its places, each once and in the order of the values, and every value
of the selector is taken by exactly one part. -/
theorem Part.classes_exact (index : LineIndex) (values : List Value) :
    (∃ places : List (List Nat × ClassPart),
      places.map Prod.snd = classesOf (ofValues index values) ∧
      (places.map Prod.fst).Pairwise (· < ·) ∧
      ∀ way found, (way, found) ∈ places ↔ ClassAt index values way found) ∧
    ∃ groups : List (List Value), groups.flatten = values ∧
      List.Forall₂ (fun part group => Takes index part group ∧ 0 < group.length ∧ group.length ≤ 3)
        (ofValues index values) groups := by
  constructor
  case left =>
    refine ⟨((waysOf 0 .other values).filter fun found => found.2.joined index).map
      fun found => (found.1, found.2.part index), ?classes, ?order, ?places⟩
    case classes =>
      rw [classesOf_ofValues, ← map_snd_waysOf 0, classParts, List.filter_map, List.map_map, List.map_map]
      rfl
    case order =>
      apply List.pairwise_map.mpr
      apply List.pairwise_map.mpr
      exact (waysOf_ascending 0 .other values).filter _
    case places =>
      intro way found
      rw [classAt_iff, List.mem_map]
      constructor
      · rintro ⟨⟨w, m⟩, mem, same⟩
        obtain ⟨isWay, joined⟩ := List.mem_filter.mp mem
        cases same
        exact ⟨m, isWay, joined, rfl⟩
      · rintro ⟨m, isWay, joined, rfl⟩
        exact ⟨(way, m), List.mem_filter.mpr ⟨isWay, joined⟩, rfl⟩
  case right =>
    obtain ⟨groups, whole, takes⟩ := exists_groups index values
    exact ⟨groups, whole, takes.imp fun _ _ own => ⟨own, own.length⟩⟩

end ClassMigration.Stylesheet
