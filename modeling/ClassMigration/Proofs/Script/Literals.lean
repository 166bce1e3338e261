import ClassMigration.Proofs.Script.Functions

/-! Literals and classes keep the script's templates in their place, and a template takes its own. -/
namespace ClassMigration.Script

open Std.Do
open Parse
open Made (Stands)

set_option mvcgen.warning false

variable {g : Grammar} [Fair g] {r : Region}

namespace Literal

@[spec] theorem spread_spec : ⦃ready r⦄ spread g ⦃made r⦄ := by
  mvcgen [spread, inherited] with simp_all

@[spec] theorem arrayElement_spec : ⦃ready r⦄ arrayElement g ⦃made r⦄ := by
  mvcgen [arrayElement, inherited, plain] with simp_all

@[spec] theorem array_spec : ⦃ready r⦄ array g ⦃yields r⦄ := by
  mvcgen [array] with simp_all

@[spec] theorem propertyStart_spec (token : Token) : ⦃ready r⦄ propertyStart g token ⦃made r⦄ := by
  mvcgen [propertyStart] with simp_all

@[spec] theorem property_spec (hasProto : Bool) : ⦃ready r⦄ property g hasProto ⦃made r⦄ := by
  mvcgen [property, inherited, isolated] with simp_all +zetaDelta

@[spec] theorem object_spec : ⦃ready r⦄ object g ⦃yields r⦄ := by
  mvcgen [object] with simp_all

/-- What holds of the part of a template that has been read. -/
structure Begun (r : Region) (closed : Bool) (chunks : List Chunk) (slots : List Node) (s : State) : Prop where
  framed : Framed r.source closed chunks slots
  stands : Stands r.source slots
  ready : r.Ready s
  behind {last : Chunk} : chunks[slots.length]? = some last → Region.Ready ⟨r.source, last.span.stop⟩ s

theorem Begun.slot {chunks : List Chunk} {slots : List Node} {slot : Node} {s t u : State} {token : Token}
    {raw : Text} {opens closes : Bool} (begun : Begun r false chunks slots s)
    (read : Function.expression g s = .ok (slot, t)) (same : t.ahead.lexeme = .chunk raw opens closes)
    (goes : next t = .ok (token, u)) : Begun r closes (chunks ++ [chunkOf raw t.ahead]) (slots ++ [slot]) u := by
  have short : slots.length < chunks.length := by
    rw [begun.framed.length]
    omega
  have last := List.getElem?_eq_getElem short
  have ready := (triple_iff.mp Function.expression_spec s begun.ready slot t read).1
  obtain ⟨-, stands, fits⟩ := triple_iff.mp Function.expression_spec s (begun.behind last) slot t read
  obtain ⟨rfl, behind⟩ := next_behind ready goes
  refine ⟨begun.framed.push last ?_ (ready.chunk same), ?_, ?_, ?_⟩
  · change slot.Fits _ _ t.ahead.start
    rw [ready.taken.begins]
    exact fits
  · simp only [Made.stands_append, Made.stands_cons, Made.stands_nil, and_true]
    exact ⟨begun.stands, stands⟩
  · exact (triple_iff.mp next_spec t ready _ u goes).1
  · intro chunk found
    obtain rfl : chunkOf raw t.ahead = chunk := by simpa [← begun.framed.length] using found
    exact behind

@[spec] theorem template_spec : ⦃ready r⦄ template g ⦃yields r⦄ := by
  refine triple_iff.mpr fun s ready node s' run => ?_
  obtain ⟨first, t, read, run⟩ := bind_ok.mp run
  obtain ⟨rfl, behind⟩ := next_behind ready read
  cases same : s.ahead.lexeme
  case chunk raw opens closes =>
    rw [same] at run
    obtain ⟨made, _, looped, run⟩ := bind_ok.mp run
    cases run
    have begun : Begun r closes [chunkOf raw s.ahead] [] t := {
      framed := .single (ready.chunk same)
      stands := Made.stands_nil
      ready := (triple_iff.mp next_spec s ready _ t read).1
      behind := by
        intro last found
        cases found
        exact behind }
    have turned := triple_iff.mp (loop_spec (P := fun (a : List Chunk × List Node × Bool) s =>
      Begun r a.2.2 a.1 a.2.1 s) (Q := fun b s => Begun r true b.1 b.2 s) ?_) t begun made s' looped
    · exact ⟨turned.ready, .template turned.framed turned.stands, Node.fits_template⟩
    clear looped begun behind
    rintro ⟨chunks, slots, closed⟩
    refine triple_iff.mpr fun s begun made s' run => ?_
    cases closed
    case true =>
      cases run
      exact begun
    case false =>
      obtain ⟨slot, t, read, run⟩ := bind_ok.mp run
      obtain ⟨token, _, looks, run⟩ := bind_ok.mp run
      cases looks
      cases same : t.ahead.lexeme
      case chunk raw opens closes =>
        rw [same] at run
        obtain ⟨_, u, goes, run⟩ := bind_ok.mp run
        obtain ⟨token, goes⟩ := discard_ok goes
        cases run
        exact begun.slot read same goes
      all_goals
        rw [same] at run
        cases run
  all_goals
    rw [same] at run
    cases run

@[spec] theorem templateOperand_spec : ⦃ready r⦄ templateOperand g ⦃yields r⦄ := by
  mvcgen [templateOperand] with simp_all

end Literal

namespace Class

@[spec] theorem opening_spec : ⦃ready r⦄ opening g ⦃made r⦄ := by
  mvcgen [opening] with simp_all

@[spec] theorem form_spec (o : Opening) (stands : Stands r.source o) : ⦃ready r⦄ form g o ⦃made r⦄ := by
  mvcgen [form] with simp_all

@[spec] theorem member_spec (hasConstructor : Bool) : ⦃ready r⦄ member g hasConstructor ⦃made r⦄ := by
  mvcgen [member] with simp_all +zetaDelta

@[spec] theorem body_spec : ⦃ready r⦄ body g ⦃made r⦄ := by
  mvcgen [body] with simp_all

@[spec] theorem afterName_spec (kind : Kind) (name : List Node) (stands : Stands r.source name) :
    ⦃ready r⦄ afterName g kind name ⦃yields r⦄ := by
  mvcgen [afterName, isolated] with simp_all

@[spec] theorem namedAhead_spec : ⦃ready r⦄ namedAhead ⦃kept r⦄ := by
  mvcgen [namedAhead]

@[spec] theorem declaration_spec (nameless : Bool) : ⦃ready r⦄ declaration g nameless ⦃yields r⦄ := by
  mvcgen [declaration] with simp_all

@[spec] theorem classExpression_spec : ⦃ready r⦄ classExpression g ⦃yields r⦄ := by
  mvcgen [classExpression] with simp_all

end Class

end ClassMigration.Script
