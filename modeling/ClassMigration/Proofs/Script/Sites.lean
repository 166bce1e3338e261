import ClassMigration.Proofs.Script.Programs
import ClassMigration.Proofs.Script.Scopes

/-! The sites that the outline of a script reports are those of the nodes that occur in it. Such nodes stand in
the script, so every member begins before it ends, and of every string something is written. -/
namespace ClassMigration.Script

namespace Node

/-- A node occurs in a script of these items at a place. -/
inductive Occurs (items : List Node) : Node → Place → Prop
  | program : Occurs items (.branch .program [.list items]) (.inside Kind.program.name)
  | part {node : Node} {place : Place} {part : Node × Place} : Occurs items node place →
    part ∈ node.parts place → Occurs items part.1 part.2

theorem Stands.parts {source : Text} {node : Node} {place : Place} (stands : node.Stands source) :
    ∀ part ∈ node.parts place, part.1.Stands source := by
  cases stands with
  | name => simp [Node.parts]
  | string => simp [Node.parts]
  | member order object property => simp [Node.parts, object, property]
  | template framed slots =>
    rintro part mem
    obtain ⟨⟨slot, index⟩, isSlot, rfl⟩ := List.mem_map.mp mem
    exact slots slot (List.fst_mem_of_mem_zipIdx isSlot)
  | list items => simpa [Node.parts] using items
  | branch parts => simpa [Node.parts] using parts

namespace Occurs

variable {source : Text} {items : List Node} {node : Node} {place : Place} {member : Member}

theorem stands (parsed : Program.parse source = .ok items) (occurs : Occurs items node place) :
    node.Stands source := by
  induction occurs with
  | program =>
    refine .branch (List.forall_mem_singleton.mpr (.list ?_))
    exact Program.stands_of_parse parsed
  | part _ mem ih => exact ih.parts _ mem

theorem slot {chunks : List Chunk} {slots : List Node} {i : Nat} {slot : Node}
    (occurs : Occurs items (.template chunks slots) place) (found : slots[i]? = some slot) :
    Occurs items slot (.slot (chunks.map Chunk.raw) i) := by
  refine @part items _ _ (slot, _) occurs (List.mem_map.mpr ⟨(slot, i), ?_, rfl⟩)
  exact List.mem_zipIdx_iff_getElem?.mpr found

theorem of_mem_preorder (occurs : Occurs items node place) :
    ∀ part ∈ node.preorder place, Occurs items part.1 part.2 := by
  induction node, place using parts_induction with
  | step node place ih =>
    rw [preorder_eq]
    refine List.forall_mem_cons.mpr ⟨occurs, fun inner mem => ?_⟩
    obtain ⟨part, isPart, inside⟩ := List.mem_flatMap.mp mem
    exact ih part isPart (occurs.part isPart) inner inside

theorem of_mem_sites {site : Site}
    (mem : site ∈ (branch .program [.list items]).sites (.inside Kind.program.name)) :
    ∃ node place, Occurs items node place ∧ node.site? place = some site := by
  rw [sites_eq] at mem
  obtain ⟨part, inside, own⟩ := List.mem_filterMap.mp mem
  exact ⟨part.1, part.2, program.of_mem_preorder part inside, own⟩

theorem scopedMembers (occurs : Occurs items node place) :
    ∃ scopes, ∀ site ∈ node.scopedMembers place scopes, site ∈ Script.scopedMembers items := by
  induction occurs with
  | program => exact ⟨[], fun site mem => mem⟩
  | @part node place part _ mem ih =>
    obtain ⟨scopes, all⟩ := ih
    refine ⟨node.opened ++ scopes, fun site isSite => all site ?_⟩
    have waits : (part.1, part.2, node.opened ++ scopes) ∈ node.scopedParts place scopes :=
      List.mem_map.mpr ⟨part, mem, rfl⟩
    rw [scopedMembers_eq]
    exact List.mem_append_right _ (List.mem_flatMap.mpr ⟨_, waits, isSite⟩)

end Occurs

variable {source : Text} {node : Node} {place : Place}

theorem Stands.member_order {member : Member} (stands : node.Stands source)
    (same : node.site? place = some (.member member)) : member.span.start ≤ member.span.stop := by
  cases stands with
  | member order =>
    cases same
    exact order
  | _ => cases same

theorem Stands.string_written {literal : StringLiteral} (stands : node.Stands source)
    (same : node.site? place = some (.string literal)) : literal.written ≠ [] := by
  cases stands with
  | string some =>
    cases same
    exact some
  | _ => cases same

end Node

namespace Site

variable {site : Site}

theorem member?_eq_some {member : Member} : site.member? = some member ↔ site = .member member := by
  cases site <;> simp [member?]

theorem string?_eq_some {literal : StringLiteral} : site.string? = some literal ↔ site = .string literal := by
  cases site <;> simp [string?]

end Site

namespace Outline

variable {source : Text} {outline : Outline} {site : Site} {member : Member} {literal : StringLiteral}

theorem read_eq_ok : Outline.read source = .ok outline ↔
    ∃ items, Program.parse source = .ok items ∧ outline = ofItems source items := by
  rw [Outline.read]
  cases Program.parse source <;> simp [Except.map, eq_comm]

theorem source_of_read (read : Outline.read source = .ok outline) : outline.source = source := by
  obtain ⟨items, -, rfl⟩ := read_eq_ok.mp read
  rfl

theorem mem_members_iff {items : List Node} : member ∈ (Outline.ofItems source items).members ↔
    ∃ node place, Node.Occurs items node place ∧ node.site? place = some (.member member) := by
  constructor
  · intro mem
    obtain ⟨site, isSite, isMember⟩ := List.mem_filterMap.mp mem
    obtain rfl := Site.member?_eq_some.mp isMember
    exact Node.Occurs.of_mem_sites isSite
  · rintro ⟨node, place, occurs, own⟩
    obtain ⟨scopes, all⟩ := occurs.scopedMembers
    rw [members_ofItems]
    refine List.mem_map.mpr ⟨⟨member, scopes⟩, all _ ?_, rfl⟩
    rw [Node.scopedMembers_eq, own]
    simp [Site.member?]

theorem order_of_read (read : Outline.read source = .ok outline) (mem : member ∈ outline.members) :
    member.span.start ≤ member.span.stop := by
  obtain ⟨items, parsed, rfl⟩ := read_eq_ok.mp read
  obtain ⟨node, place, occurs, same⟩ := mem_members_iff.mp mem
  exact (occurs.stands parsed).member_order same

theorem written_of_read (read : Outline.read source = .ok outline) (mem : literal ∈ outline.strings) :
    literal.written ≠ [] := by
  obtain ⟨items, parsed, rfl⟩ := read_eq_ok.mp read
  obtain ⟨site, isSite, isString⟩ := List.mem_filterMap.mp mem
  obtain rfl := Site.string?_eq_some.mp isString
  obtain ⟨node, place, occurs, same⟩ := Node.Occurs.of_mem_sites isSite
  exact (occurs.stands parsed).string_written same

end Outline

end ClassMigration.Script
