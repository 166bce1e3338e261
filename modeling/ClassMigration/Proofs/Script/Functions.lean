import ClassMigration.Proofs.Script.Steps

/-! Patterns and functions keep the script's templates in their place. -/
namespace ClassMigration.Script

open Std.Do
open Parse
open Made (Stands)

set_option mvcgen.warning false

variable {g : Grammar} [Fair g] {r : Region}

namespace Binding

@[spec] theorem identifier_spec : ⦃ready r⦄ identifier ⦃yields r⦄ := by
  mvcgen [identifier] with simp_all

@[spec] theorem restElement_spec (lexical : Bool) : ⦃ready r⦄ restElement g lexical ⦃made r⦄ := by
  mvcgen [restElement] with simp_all

@[spec] theorem withDefault_spec (lexical : Bool) : ⦃ready r⦄ withDefault g lexical ⦃made r⦄ := by
  mvcgen [withDefault, isolated] with simp_all

@[spec] theorem arrayElement_spec (lexical : Bool) : ⦃ready r⦄ arrayElement g lexical ⦃made r⦄ := by
  mvcgen [arrayElement] with simp_all

@[spec] theorem array_spec (lexical : Bool) : ⦃ready r⦄ array g lexical ⦃made r⦄ := by
  mvcgen [array] with simp_all +zetaDelta

@[spec] theorem key_spec : ⦃ready r⦄ key g ⦃made r⦄ := by
  mvcgen [key, isolated] with simp_all
  case vc4.post.success.h_1.isFalse =>
    rename_i same _ read
    exact read.2.2 _ _ _ same

@[spec] theorem property_spec (lexical : Bool) : ⦃ready r⦄ property g lexical ⦃made r⦄ := by
  mvcgen [property] with simp_all

@[spec] theorem restProperty_spec : ⦃ready r⦄ restProperty g ⦃made r⦄ := by
  mvcgen [restProperty] with simp_all

@[spec] theorem object_spec (lexical : Bool) : ⦃ready r⦄ object g lexical ⦃made r⦄ := by
  mvcgen [object] with simp_all [Made.stands_firsts]

@[spec] theorem pattern_spec (lexical : Bool) : ⦃ready r⦄ pattern g lexical ⦃made r⦄ := by
  mvcgen [pattern] with simp_all

@[spec] theorem restParameter_spec : ⦃ready r⦄ restParameter g ⦃made r⦄ := by
  mvcgen [restParameter] with simp_all

end Binding

namespace Function

@[spec] theorem parameter_spec (p : Parameters) (stands : Stands r.source p) :
    ⦃ready r⦄ parameter g p ⦃made r⦄ := by
  mvcgen [parameter] with simp_all +zetaDelta

@[spec] theorem parameters_spec : ⦃ready r⦄ parameters g ⦃made r⦄ := by
  mvcgen [parameters] with simp_all

@[spec] theorem expression_spec : ⦃ready r⦄ expression g ⦃yields r⦄ := by
  mvcgen [expression, isolated] with simp_all

@[spec] theorem directive_spec : ⦃ready r⦄ directive g ⦃made r⦄ := by
  have node := expression_spec (g := g) (r := r)
  have ends := semicolon_spec (r := r)
  unfold directive
  generalize "use strict".codePoints = words
  mvcgen [-expression_spec, -semicolon_spec, node, ends] with simp_all +zetaDelta

@[spec] theorem directives_spec : ⦃ready r⦄ directives g ⦃made r⦄ := by
  mvcgen [directives] with simp_all

@[spec] theorem body_spec : ⦃ready r⦄ body g ⦃yields r⦄ := by
  mvcgen [body] with simp_all

@[spec] theorem checked_spec (p : Parameters) : ⦃ready r⦄ checked p ⦃kept r⦄ := by
  unfold checked
  split
  · exact fun _ _ => trivial
  · mvcgen

@[spec] theorem bodyAfter_spec {read : Parse Node} (p : Parameters) (reads : ⦃ready r⦄ read ⦃made r⦄) :
    ⦃ready r⦄ bodyAfter read p ⦃made r⦄ := by
  mvcgen [bodyAfter, reads] with simp_all

@[spec] theorem afterName_spec (kind : Kind) (name : List Node) (stands : Stands r.source name) :
    ⦃ready r⦄ afterName g kind name ⦃yields r⦄ := by
  mvcgen [afterName] with simp_all

@[spec] theorem opening_spec : ⦃ready r⦄ opening ⦃kept r⦄ := by
  mvcgen [opening] with simp_all

@[spec] theorem functionName_spec : ⦃ready r⦄ functionName ⦃made r⦄ := by
  mvcgen [functionName] with simp_all

@[spec] theorem declaration_spec (nameless : Bool) : ⦃ready r⦄ declaration g nameless ⦃yields r⦄ := by
  mvcgen [declaration, within] with simp_all

@[spec] theorem functionExpression_spec : ⦃ready r⦄ functionExpression g ⦃yields r⦄ := by
  mvcgen [functionExpression, within] with simp_all

@[spec] theorem methodBody_spec (p : Parameters) : ⦃ready r⦄ methodBody g p ⦃made r⦄ := by
  mvcgen [methodBody, isolated, plain] with simp_all

@[simp] theorem stands_methodOf {source : Text} {p : Parameters} {node : Node} :
    Stands source (methodOf p node) ↔ Stands source p.nodes ∧ Stands source node := by simp [methodOf]

@[spec] theorem method_spec : ⦃ready r⦄ method g ⦃made r⦄ := by
  mvcgen [method, withYield] with simp_all

@[spec] theorem asyncMethod_spec : ⦃ready r⦄ asyncMethod g ⦃made r⦄ := by
  mvcgen [asyncMethod, within] with simp_all

@[spec] theorem generatorMethod_spec : ⦃ready r⦄ generatorMethod g ⦃made r⦄ := by
  mvcgen [generatorMethod, withYield] with simp_all

@[spec] theorem getter_spec : ⦃ready r⦄ getter g ⦃made r⦄ := by
  mvcgen [getter, withYield] with simp_all

@[spec] theorem setter_spec : ⦃ready r⦄ setter g ⦃made r⦄ := by
  mvcgen [setter, withYield] with simp_all

end Function

end ClassMigration.Script
