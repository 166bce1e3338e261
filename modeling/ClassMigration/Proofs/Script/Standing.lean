import ClassMigration.Proofs.Script.Lexing
import ClassMigration.Proofs.SlotSpan
import ClassMigration.Script.Statement

/-! Trees whose templates stand in the script. Each chunk is found at its place between its delimiters, and
a member directly in a slot begins behind the slot's opening. Where nothing but blanks follows such a member
up to a closing brace, that brace is the one that ends the slot. -/
namespace ClassMigration

namespace Script

def Chunk.Stands (source : Text) (closes : Bool) (chunk : Chunk) : Prop := ∃ (opening : CodePoint) (more : Text),
  (opening = '\x60' ∨ opening = '\x7d') ∧
  source.drop chunk.span.start = opening :: (chunk.raw ++ (Quotation.delimiter closes ++ more)) ∧
  chunk.span.stop = chunk.span.start + 1 + chunk.raw.length + (Quotation.delimiter closes).length

/-- A member in a slot lies between `start` and `stop`, and no closing brace stands before `stop` with only
blanks between the two. A list would leave its items in the slot. -/
def Node.Fits (source : Text) (start stop : Nat) : Node → Prop
  | .member _ _ _ span => start ≤ span.start ∧ span.stop ≤ stop ∧
    (source[Slot.afterBlanks source span.stop]? = some (.char '\x7d') →
      stop ≤ Slot.afterBlanks source span.stop)
  | .list _ => False
  | _ => True

/-- The chunks of a template up to one that closes it or not, with the slots between them. -/
structure Framed (source : Text) (closes : Bool) (chunks : List Chunk) (slots : List Node) : Prop where
  length : chunks.length = slots.length + 1
  stands {i : Nat} {chunk : Chunk} : chunks[i]? = some chunk → chunk.Stands source (closes && i == slots.length)
  fits {i : Nat} {before after : Chunk} {slot : Node} : chunks[i]? = some before → slots[i]? = some slot →
    chunks[i + 1]? = some after → slot.Fits source before.span.stop after.span.start

namespace Framed

variable {source : Text} {closes : Bool} {chunks : List Chunk} {slots : List Node} {chunk last : Chunk}
  {slot : Node}

theorem single (stands : chunk.Stands source closes) : Framed source closes [chunk] [] where
  length := rfl
  stands := by
    intro i chunk' found
    obtain ⟨rfl, rfl⟩ : i = 0 ∧ chunk = chunk' := by simpa [List.getElem?_cons] using found
    simpa using stands
  fits _ _ found := by simp at found

theorem push (framed : Framed source false chunks slots) (behind : chunks[slots.length]? = some last)
    (fits : slot.Fits source last.span.stop chunk.span.start) (stands : chunk.Stands source closes) :
    Framed source closes (chunks ++ [chunk]) (slots ++ [slot]) where
  length := by simp [framed.length]
  stands := by
    intro i chunk' found
    have short := framed.length
    by_cases final : i = slots.length + 1
    · obtain rfl : chunk = chunk' := by simpa [final, ← short] using found
      simpa [final] using stands
    · have inside : chunks[i]? = some chunk' := by
        have := (List.getElem?_eq_some_iff.mp found).1
        rwa [List.getElem?_append_left (by simp at this; omega)] at found
      have notLast : (i == (slots ++ [slot]).length) = false := by simpa using final
      rw [notLast, Bool.and_false]
      simpa using framed.stands inside
  fits := by
    intro i before after slot' first place second
    have short := framed.length
    have bound : i < slots.length + 1 := by
      have := (List.getElem?_eq_some_iff.mp place).1
      simpa using this
    rw [List.getElem?_append_left (by omega)] at first
    by_cases final : i = slots.length
    · subst final
      obtain rfl : last = before := Option.some.inj (behind.symm.trans first)
      obtain rfl : slot = slot' := by simpa using place
      obtain rfl : chunk = after := by simpa [← short] using second
      exact fits
    · rw [List.getElem?_append_left (by omega)] at place second
      exact framed.fits first place second

end Framed

/-- Every template in the tree stands in the script, every member begins before it ends, and of every string
something is written. -/
inductive Node.Stands (source : Text) : Node → Prop
  | name {id : Text} : Stands source (.name id)
  | string {value written : Text} {span : Span} : written ≠ [] → Stands source (.string value written span)
  | member {object property : Node} {computed : Bool} {span : Span} : span.start ≤ span.stop →
    Stands source object → Stands source property → Stands source (.member object property computed span)
  | template {chunks : List Chunk} {slots : List Node} : Framed source true chunks slots →
    (∀ slot ∈ slots, Stands source slot) → Stands source (.template chunks slots)
  | list {items : List Node} : (∀ item ∈ items, Stands source item) → Stands source (.list items)
  | branch {kind : Kind} {parts : List Node} : (∀ part ∈ parts, Stands source part) →
    Stands source (.branch kind parts)

/-- What a step of the parser makes: a tree, something that holds trees, or nothing of the kind. -/
class Made (α : Type) where
  Stands : Text → α → Prop

namespace Made

variable {α β : Type} [Made α] [Made β] {source : Text}

instance : Made Node := ⟨Node.Stands⟩
instance : Made (List α) := ⟨fun source made => ∀ a ∈ made, Stands source a⟩
instance : Made (Option α) := ⟨fun source made => ∀ a ∈ made, Stands source a⟩
instance : Made (α × β) := ⟨fun source made => Stands source made.1 ∧ Stands source made.2⟩
instance : Made (α ⊕ β) := ⟨fun source => Sum.elim (Stands source) (Stands source)⟩
instance : Made Unit := ⟨fun _ _ => True⟩
instance : Made Bool := ⟨fun _ _ => True⟩
instance : Made Nat := ⟨fun _ _ => True⟩
instance : Made Token := ⟨fun _ _ => True⟩
instance : Made Class.Form := ⟨fun _ _ => True⟩
instance : Made Parameters := ⟨fun source p => Stands source p.nodes⟩
instance : Made Class.Opening := ⟨fun source o => Stands source o.key⟩
instance : Made Element.Pending := ⟨fun source p => Stands source (p.opening, p.children)⟩
instance : Made Statement.Declared := ⟨fun source declared => Stands source declared.node⟩
instance : Made Statement.Head := ⟨fun source => fun
  | .counted initial => Stands source initial
  | .overKeys left right => Stands source (left, right)
  | .overValues left right => Stands source (left, right)⟩

@[simp] theorem stands_nil : Stands source ([] : List α) := by simp [Stands]

@[simp] theorem stands_cons {a : α} {made : List α} :
    Stands source (a :: made) ↔ Stands source a ∧ Stands source made := List.forall_mem_cons

@[simp] theorem stands_append {made made' : List α} :
    Stands source (made ++ made') ↔ Stands source made ∧ Stands source made' := List.forall_mem_append

@[simp] theorem stands_none : Stands source (none : Option α) := by simp [Stands]

@[simp] theorem stands_some {a : α} : Stands source (some a) ↔ Stands source a := by simp [Stands]

@[simp] theorem stands_pair {made : α × β} :
    Stands source made ↔ Stands source made.1 ∧ Stands source made.2 := Iff.rfl

@[simp] theorem stands_inl {a : α} : Stands source (.inl a : α ⊕ β) ↔ Stands source a := Iff.rfl

@[simp] theorem stands_inr {b : β} : Stands source (.inr b : α ⊕ β) ↔ Stands source b := Iff.rfl

@[simp] theorem stands_unit {u : Unit} : Stands source u := trivial

@[simp] theorem stands_bool {b : Bool} : Stands source b := trivial

@[simp] theorem stands_nat {n : Nat} : Stands source n := trivial

@[simp] theorem stands_token {token : Token} : Stands source token := trivial

@[simp] theorem stands_tokens {tokens : List Token} : Stands source tokens := fun _ _ => trivial

@[simp] theorem stands_form {form : Class.Form} : Stands source form := trivial

@[simp] theorem stands_name {id : Text} : Stands source (Node.name id) := Node.Stands.name

@[simp] theorem stands_string {value written : Text} {span : Span} :
    Stands source (Node.string value written span) ↔ written ≠ [] :=
  ⟨fun stands => by cases stands with | string some => exact some, Node.Stands.string⟩

@[simp] theorem stands_member {object property : Node} {computed : Bool} {span : Span} :
    Stands source (Node.member object property computed span) ↔
      span.start ≤ span.stop ∧ Stands source object ∧ Stands source property :=
  ⟨fun stands => by cases stands with | member order object property => exact ⟨order, object, property⟩,
    fun stands => Node.Stands.member stands.1 stands.2.1 stands.2.2⟩

@[simp] theorem stands_list {items : List Node} :
    Stands source (Node.list items) ↔ Stands source items :=
  ⟨fun stands => by cases stands with | list items => exact items, Node.Stands.list⟩

@[simp] theorem stands_branch {kind : Kind} {parts : List Node} :
    Stands source (Node.branch kind parts) ↔ Stands source parts :=
  ⟨fun stands => by cases stands with | branch parts => exact parts, Node.Stands.branch⟩

@[simp] theorem stands_leaf {kind : Kind} : Stands source (Node.leaf kind) := by simp [Node.leaf]

theorem stands_firsts {made : List (α × β)} (stands : Stands source made) :
    Stands source (made.map Prod.fst) := by
  intro a mem
  obtain ⟨pair, isIn, rfl⟩ := List.mem_map.mp mem
  exact (stands pair isIn).1

@[simp] theorem stands_somes {made : List (Option α)} :
    Stands source (made.filterMap fun a => a) ↔ Stands source made := by
  refine ⟨fun stands a mem b same => ?_, fun stands b mem => ?_⟩
  · exact stands b (List.mem_filterMap.mpr ⟨a, mem, same⟩)
  · obtain ⟨a, mem, same⟩ := List.mem_filterMap.mp mem
    exact stands a mem b same

@[simp] theorem stands_ite {c : Prop} [Decidable c] {a b : α} :
    Stands source (if c then a else b) ↔ if c then Stands source a else Stands source b := by
  split <;> rfl

@[simp] theorem stands_parameters {p : Parameters} : Stands source p ↔ Stands source p.nodes := Iff.rfl

@[simp] theorem stands_opening {o : Class.Opening} : Stands source o ↔ Stands source o.key := Iff.rfl

@[simp] theorem stands_pending {p : Element.Pending} :
    Stands source p ↔ Stands source p.opening ∧ Stands source p.children := Iff.rfl

@[simp] theorem stands_declared {declared : Statement.Declared} :
    Stands source declared ↔ Stands source declared.node := Iff.rfl

@[simp] theorem stands_counted {initial : List Node} :
    Stands source (Statement.Head.counted initial) ↔ Stands source initial := Iff.rfl

@[simp] theorem stands_overKeys {left right : Node} :
    Stands source (Statement.Head.overKeys left right) ↔ Stands source left ∧ Stands source right := Iff.rfl

@[simp] theorem stands_overValues {left right : Node} :
    Stands source (Statement.Head.overValues left right) ↔ Stands source left ∧ Stands source right := Iff.rfl

end Made

namespace Parameters

@[simp] theorem nodes_none : Parameters.none.nodes = [] := rfl

@[simp] theorem nodes_add {p : Parameters} {node : Node} : (p.add node).nodes = p.nodes ++ [node] := rfl

@[simp] theorem nodes_bind {p : Parameters} {name : Text} {line : Nat} : (p.bind name line).nodes = p.nodes :=
  rfl

@[simp] theorem nodes_bindAll {p : Parameters} {names : List α} {name : α → Text} {line : α → Nat} :
    (names.foldl (fun p a => p.bind (name a) (line a)) p).nodes = p.nodes := by
  induction names generalizing p with
  | nil => rfl
  | cons a names ih => rw [List.foldl_cons, ih, nodes_bind]

end Parameters

namespace Node

variable {source : Text} {start stop : Nat}

@[simp] theorem fits_name {id : Text} : (name id).Fits source start stop := trivial

@[simp] theorem fits_string {value written : Text} {span : Span} :
    (string value written span).Fits source start stop := trivial

@[simp] theorem fits_template {chunks : List Chunk} {slots : List Node} :
    (template chunks slots).Fits source start stop := trivial

@[simp] theorem fits_branch {kind : Kind} {parts : List Node} :
    (branch kind parts).Fits source start stop := trivial

@[simp] theorem fits_leaf {kind : Kind} : (leaf kind).Fits source start stop := trivial

theorem Fits.earlier {before : Nat} {node : Node} (fits : node.Fits source start stop)
    (order : before ≤ start) : node.Fits source before stop := by
  cases node with
  | member object property computed span => exact ⟨Nat.le_trans order fits.1, fits.2⟩
  | _ => exact fits

/-- What fits before a character that is no blank and no brace fits before any later place. -/
theorem Fits.closed {later : Nat} {c : CodePoint} {node : Node}
    (fits : node.Fits source start stop) (found : source[stop]? = some c) (solid : isBlank c = false)
    (noBrace : c ≠ '\x7d') (onward : stop ≤ later) : node.Fits source start later := by
  cases node with
  | member object property computed span =>
    obtain ⟨begins, ends, brace⟩ := fits
    refine ⟨begins, Nat.le_trans ends onward, fun same => ?_⟩
    rcases Nat.lt_or_eq_of_le (brace same) with before | rfl
    · have blank := Slot.blankFrom_afterBlanks _ _ ends before found
      rw [solid] at blank
      cases blank
    · rw [found] at same
      exact absurd (Option.some.inj same) noBrace
  | _ => exact fits

end Node

end Script

end ClassMigration
