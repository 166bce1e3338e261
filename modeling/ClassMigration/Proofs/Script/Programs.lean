import ClassMigration.Proofs.Script.Statements
import ClassMigration.Script.Program

/-! Whole scripts: imports, exports and everything that stands inside them give trees that stand in the script,
to any depth of the grammar. -/
namespace ClassMigration.Script

open Std.Do
open Parse
open Made (Stands)

set_option mvcgen.warning false

variable {α : Type} {g : Grammar} {r : Region}

namespace Exchange

@[spec] theorem source_spec : ⦃ready r⦄ source ⦃made r⦄ := by
  mvcgen [source] with simp_all
  case vc3.h_1.post.success => exact Region.Ready.written ‹_› ‹_›

@[spec] theorem missingWord_spec : ⦃⌜True⌝⦄ (missingWord : Parse α) ⦃⇓? _ _ => ⌜False⌝⦄ := by
  mvcgen [missingWord]

@[spec] theorem fromSource_spec : ⦃ready r⦄ fromSource ⦃made r⦄ := by
  mvcgen [fromSource] with simp_all

@[spec] theorem importSpecifier_spec : ⦃ready r⦄ importSpecifier ⦃made r⦄ := by
  mvcgen [importSpecifier] with simp_all

@[spec] theorem namedImports_spec : ⦃ready r⦄ namedImports ⦃made r⦄ := by
  mvcgen [namedImports] with simp_all

@[spec] theorem importNamespace_spec : ⦃ready r⦄ importNamespace ⦃made r⦄ := by
  mvcgen [importNamespace] with simp_all

@[spec] theorem importSpecifiers_spec : ⦃ready r⦄ importSpecifiers ⦃made r⦄ := by
  mvcgen [importSpecifiers] with simp_all +zetaDelta

@[spec] theorem outsideFunctions_spec : ⦃ready r⦄ outsideFunctions ⦃kept r⦄ := by
  mvcgen [outsideFunctions] with simp_all

@[spec] theorem importDeclaration_spec : ⦃ready r⦄ importDeclaration ⦃made r⦄ := by
  mvcgen [importDeclaration] with simp_all

@[spec] theorem exportSpecifier_spec : ⦃ready r⦄ exportSpecifier ⦃made r⦄ := by
  mvcgen [exportSpecifier] with simp_all

@[spec] theorem exportSpecifiers_spec : ⦃ready r⦄ exportSpecifiers ⦃made r⦄ := by
  mvcgen [exportSpecifiers] with simp_all [Made.stands_firsts]

@[spec] theorem exportedNames_spec : ⦃ready r⦄ exportedNames ⦃made r⦄ := by
  mvcgen [exportedNames] with simp_all +zetaDelta

variable [Fair g]

@[spec] theorem exportDefault_spec : ⦃ready r⦄ exportDefault g ⦃made r⦄ := by
  mvcgen [exportDefault] with simp_all +zetaDelta

@[spec] theorem exportDeclaration_spec : ⦃ready r⦄ exportDeclaration g ⦃made r⦄ := by
  mvcgen [exportDeclaration] with simp_all +zetaDelta

end Exchange

namespace Program

@[spec] theorem item_spec [Fair g] : ⦃ready r⦄ item g ⦃made r⦄ := by
  unfold item
  -- Which words they are does not matter.
  generalize "export".codePoints = exportWord, "import".codePoints = importWord, "const".codePoints = constWord,
    "function".codePoints = functionWord, "class".codePoints = classWord, "let".codePoints = letWord
  mvcgen with simp_all

instance fair_grammar (depth : Nat) : Fair (grammar depth) := by
  induction depth with
  | zero => exact ⟨fun _ _ _ => trivial, fun _ _ _ => trivial, fun _ _ _ => trivial, fun _ _ _ => trivial,
      fun _ _ _ => trivial, fun _ _ _ => trivial, fun _ _ _ => trivial, fun _ _ _ => trivial,
      fun _ _ _ _ => trivial, fun _ _ _ => trivial⟩
  | succ depth ih =>
    exact {
      assignment := fun _ => Expression.assignment_spec
      unary := fun _ => Expression.unary_spec
      power := fun _ => Expression.power_spec
      operand := fun _ => Expression.operand_spec
      callee := fun _ => Expression.callee_spec
      primary := fun _ => Expression.primary_spec
      statement := fun _ => Statement.statement_spec
      item := fun _ => item_spec
      pattern := fun _ lexical => Binding.pattern_spec lexical
      element := fun _ => Element.element_spec }

@[spec] theorem items_spec [Fair g] : ⦃ready r⦄ items g ⦃made r⦄ := by
  mvcgen [items] with simp_all

theorem begin_ready {source : Text} {s : State} (begun : begin source = .ok s) :
    Region.Ready ⟨source, 0⟩ s := by
  obtain ⟨start, found, begun⟩ := bind_eq_ok.mp begun
  obtain ⟨⟨token, braces, cursor⟩, read, begun⟩ := bind_eq_ok.mp begun
  cases begun
  have first : (Cursor.ofSource source).At source := rfl
  obtain ⟨onward, -⟩ := Cursor.skipBlanks_onward found first
  exact ⟨Nat.zero_le _, onward.place first, Lexer.token_taken read⟩

theorem stands_of_parse {source : Text} {nodes : List Node} (parsed : parse source = .ok nodes) :
    ∀ node ∈ nodes, node.Stands source := by
  obtain ⟨state, begun, parsed⟩ := bind_eq_ok.mp parsed
  obtain ⟨⟨made, last⟩, run, parsed⟩ := bind_eq_ok.mp parsed
  cases parsed
  have ready := begin_ready begun
  exact (triple_iff.mp (items_spec (r := ⟨source, 0⟩)) state ready nodes last run).2

end Program

end ClassMigration.Script
