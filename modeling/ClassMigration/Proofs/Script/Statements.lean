import ClassMigration.Proofs.Script.Expressions

/-! Statements keep the script's templates in their place. -/
namespace ClassMigration.Script.Statement

open Std.Do
open Parse
open Made (Stands)

set_option mvcgen.warning false

variable {α : Type} {g : Grammar} [Fair g] {r : Region}

@[spec] theorem expression_spec : ⦃ready r⦄ expression g ⦃yields r⦄ := Function.expression_spec

@[spec] theorem expressionStatement_spec : ⦃ready r⦄ expressionStatement g ⦃made r⦄ := by
  mvcgen [expressionStatement] with simp_all

@[spec] theorem block_spec : ⦃ready r⦄ block g ⦃made r⦄ := by
  mvcgen [block] with simp_all

@[simp] theorem stands_make {source : Text} {pattern : Node} {initializer : Option Node} :
    Stands source (Declared.make pattern initializer).node ↔ Stands source pattern ∧ Stands source initializer := by
  cases initializer <;> simp [Declared.make]

@[spec] theorem initializer_spec : ⦃ready r⦄ initializer g ⦃made r⦄ := by
  mvcgen [initializer, isolated] with simp_all

@[spec] theorem variableDeclarator_spec (inFor : Bool) : ⦃ready r⦄ variableDeclarator g inFor ⦃made r⦄ := by
  mvcgen [variableDeclarator, checkVariable] with simp_all

@[spec] theorem lexicalDeclarator_spec (constant inFor : Bool) :
    ⦃ready r⦄ lexicalDeclarator g constant inFor ⦃made r⦄ := by
  mvcgen [lexicalDeclarator, checkVariable] with simp_all

@[spec] theorem declarators_spec {one : Parse Declared} (reads : ⦃ready r⦄ one ⦃made r⦄) :
    ⦃ready r⦄ declarators one ⦃made r⦄ := by
  mvcgen [declarators, reads] with simp_all

theorem stands_declaration {source : Text} {declared : List Declared} (stands : Stands source declared) :
    Stands source (declaration declared) := by
  refine .branch (List.forall_mem_singleton.mpr (.list fun node mem => ?_))
  obtain ⟨one, isIn, rfl⟩ := List.mem_map.mp mem
  exact stands one isIn

@[spec] theorem variableStatement_spec : ⦃ready r⦄ variableStatement g ⦃made r⦄ := by
  mvcgen [variableStatement] with simp_all [stands_declaration]

@[spec] theorem lexicalDeclarators_spec (inFor : Bool) : ⦃ready r⦄ lexicalDeclarators g inFor ⦃made r⦄ := by
  mvcgen [lexicalDeclarators] with simp_all

@[spec] theorem lexicalDeclaration_spec : ⦃ready r⦄ lexicalDeclaration g ⦃made r⦄ := by
  mvcgen [lexicalDeclaration] with simp_all [stands_declaration]

@[spec] theorem declaresLexically_spec : ⦃ready r⦄ declaresLexically ⦃kept r⦄ := by
  mvcgen [declaresLexically]

@[spec] theorem clause_spec : ⦃ready r⦄ clause g ⦃made r⦄ := by
  mvcgen [clause]

@[spec] theorem ifStatement_spec : ⦃ready r⦄ ifStatement g ⦃made r⦄ := by
  mvcgen [ifStatement] with simp_all

@[spec] theorem doWhile_spec : ⦃ready r⦄ doWhile g ⦃made r⦄ := by
  mvcgen [doWhile, inLoop] with simp_all

@[spec] theorem whileLoop_spec : ⦃ready r⦄ whileLoop g ⦃made r⦄ := by
  mvcgen [whileLoop, inLoop] with simp_all

@[spec] theorem keysOf_spec (left : Node) (stands : Stands r.source left) : ⦃ready r⦄ keysOf g left ⦃made r⦄ := by
  mvcgen [keysOf] with simp_all

@[spec] theorem valuesOf_spec (left : Node) (stands : Stands r.source left) : ⦃ready r⦄ valuesOf g left ⦃made r⦄ := by
  mvcgen [valuesOf] with simp_all

@[spec] theorem variableHead_spec : ⦃ready r⦄ variableHead g ⦃made r⦄ := by
  mvcgen [variableHead, withoutIn] with simp_all +zetaDelta [stands_declaration]

@[spec] theorem lexicalHead_spec : ⦃ready r⦄ lexicalHead g ⦃made r⦄ := by
  mvcgen [lexicalHead, withoutIn] with simp_all +zetaDelta [stands_declaration]

@[spec] theorem expressionHead_spec : ⦃ready r⦄ expressionHead g ⦃made r⦄ := by
  mvcgen [expressionHead, withoutIn, inherited, isolated, checkLeft] with simp_all

@[spec] theorem forHead_spec : ⦃ready r⦄ forHead g ⦃made r⦄ := by
  mvcgen [forHead] with simp_all

@[spec] theorem forLoop_spec : ⦃ready r⦄ forLoop g ⦃made r⦄ := by
  mvcgen [forLoop, inLoop, isolated] with simp_all

@[spec] theorem jumpLabel_spec : ⦃ready r⦄ jumpLabel ⦃made r⦄ := by
  mvcgen [jumpLabel] with simp_all

@[spec] theorem continueStatement_spec : ⦃ready r⦄ continueStatement ⦃made r⦄ := by
  mvcgen [continueStatement] with simp_all

@[spec] theorem breakStatement_spec : ⦃ready r⦄ breakStatement ⦃made r⦄ := by
  mvcgen [breakStatement] with simp_all

@[spec] theorem returnStatement_spec : ⦃ready r⦄ returnStatement g ⦃made r⦄ := by
  mvcgen [returnStatement] with simp_all

@[spec] theorem switchCase_spec : ⦃ready r⦄ switchCase g ⦃made r⦄ := by
  mvcgen [switchCase] with simp_all

@[spec] theorem switchStatement_spec : ⦃ready r⦄ switchStatement g ⦃made r⦄ := by
  mvcgen [switchStatement] with simp_all

@[spec] theorem labeled_spec : ⦃ready r⦄ labeled g ⦃made r⦄ := by
  mvcgen [labeled] with simp_all

@[spec] theorem throwStatement_spec : ⦃ready r⦄ throwStatement g ⦃made r⦄ := by
  mvcgen [throwStatement] with simp_all

@[spec] theorem catchClause_spec : ⦃ready r⦄ catchClause g ⦃made r⦄ := by
  mvcgen [catchClause] with simp_all

@[spec] theorem tryStatement_spec : ⦃ready r⦄ tryStatement g ⦃made r⦄ := by
  mvcgen [tryStatement] with simp_all

@[spec] theorem debuggerStatement_spec : ⦃ready r⦄ debuggerStatement ⦃made r⦄ := by
  mvcgen [debuggerStatement] with simp_all

@[spec] theorem emptyStatement_spec : ⦃ready r⦄ emptyStatement ⦃made r⦄ := by
  mvcgen [emptyStatement] with simp_all

theorem statements_spec : ∀ entry ∈ statements g, ⦃ready r⦄ entry.2 ⦃made r⦄ := by
  simp only [statements, List.forall_mem_cons, List.not_mem_nil, false_implies, implies_true, and_true]
  refine ⟨breakStatement_spec, continueStatement_spec, debuggerStatement_spec, doWhile_spec, forLoop_spec,
    made_of_yields (Function.declaration_spec false), ifStatement_spec, returnStatement_spec,
    switchStatement_spec, throwStatement_spec, tryStatement_spec, variableStatement_spec, whileLoop_spec, ?_⟩
  mvcgen with simp_all

@[spec] theorem statement_spec : ⦃ready r⦄ statement g ⦃made r⦄ := by
  mvcgen [statement]
  case vc9.h_4.h_1 s ready word _ _ read found =>
    exact statements_spec _ (List.mem_of_find?_eq_some found) s ready
  all_goals simp_all

end ClassMigration.Script.Statement
