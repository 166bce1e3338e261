import ClassMigration.Proofs.Script.Literals

/-! Elements keep the script's templates in their place. Inside them the token ahead has been given back. -/
namespace ClassMigration.Script.Element

open Std.Do
open Parse
open Made (Stands)

set_option mvcgen.warning false

variable {α β : Type} {g : Grammar} [Fair g] {r : Region}

abbrev unread (r : Region) : Assertion Shape := fun s => ⌜r.Open s⌝

abbrev keptOpen (r : Region) : PostCond α Shape := ⇓? _ s => ⌜r.Open s⌝

abbrev madeOpen [Made α] (r : Region) : PostCond α Shape := ⇓? a s => ⌜r.Open s ∧ Stands r.source a⌝

theorem tagToken_onward {fuel : Nat} {braces : List Brace} {c : Cursor} {read : Token × List Brace × Cursor}
    (run : tagToken fuel braces c = .ok read) : Cursor.Onward c read.2.2 ∧ Filled read.1 := by
  have taken {read : Token × List Brace × Cursor} (run : Lexer.token fuel braces c = .ok read) :
      Cursor.Onward c read.2.2 ∧ Filled read.1 :=
    ⟨(Lexer.token_taken run).onward, fun _ _ _ same => (Lexer.token_taken run).written same⟩
  unfold tagToken at run
  dsimp only at run
  split at run
  · exact taken run
  · repeat' split at run
    all_goals first
      | exact taken run
      | cases run; exact ⟨.skip _ _, fun _ _ _ same => by cases same⟩
      | skip
    obtain ⟨made, -, same⟩ := bind_eq_ok.mp run
    cases same
    refine ⟨.skip _ _, fun _ _ _ same => ?_⟩
    cases same
    simp_all

@[spec] theorem tagToken_spec (fuel : Nat) (braces : List Brace) (c : Cursor) :
    ⦃⌜True⌝⦄ tagToken fuel braces c ⦃⇓? read => ⌜Cursor.Onward c read.2.2 ∧ Filled read.1⌝⦄ :=
  triple_of_ok fun _ => tagToken_onward

@[spec] theorem giveBack_spec : ⦃ready r⦄ giveBack ⦃keptOpen r⦄ := by
  mvcgen [giveBack]
  case vc1 s ready _ =>
  exact ⟨ready.onward, ready.place⟩

@[spec] theorem skip_spec : ⦃unread r⦄ skip ⦃keptOpen r⦄ := by
  mvcgen [skip]
  case vc1.success s unread c found =>
  obtain ⟨onward, -⟩ := found r.source unread.2
  exact ⟨unread.1.trans onward.le, onward.place unread.2⟩

@[spec] theorem nextTag_spec : ⦃unread r⦄ nextTag ⦃⇓? token s => ⌜r.Open s ∧ Filled token⌝⦄ := by
  mvcgen [nextTag]
  case vc3.post.success.success _ _ _ s unread read taken =>
  obtain ⟨onward, filled⟩ := taken
  exact ⟨⟨unread.1.trans onward.le, onward.place unread.2⟩, filled⟩

@[spec] theorem peekTag_spec : ⦃unread r⦄ peekTag ⦃keptOpen r⦄ := by
  mvcgen [peekTag]

@[spec] theorem seesTag_spec (symbol : String) : ⦃unread r⦄ seesTag symbol ⦃keptOpen r⦄ := by
  mvcgen [seesTag]

@[spec] theorem expectTag_spec (symbol : String) : ⦃unread r⦄ expectTag symbol ⦃keptOpen r⦄ := by
  mvcgen [expectTag] with simp_all

@[spec] theorem leave_spec : ⦃unread r⦄ leave ⦃kept r⦄ := by
  refine triple_iff.mpr fun s unread u s' run => ?_
  obtain ⟨token, read⟩ := discard_ok run
  exact (triple_iff.mp next_open s unread token s' read).1

@[spec] theorem reenter_spec : ⦃ready r⦄ reenter ⦃keptOpen r⦄ := by
  mvcgen [reenter]

@[spec] theorem tagName_spec : ⦃unread r⦄ tagName ⦃madeOpen r⦄ := by
  mvcgen [tagName] with simp_all

@[spec] theorem attributeName_spec : ⦃unread r⦄ attributeName ⦃madeOpen r⦄ := by
  mvcgen [attributeName] with simp_all

section Loops

variable [Made α] [Made β]

theorem loop_open {start : α} {step : α → Parse (α ⊕ β)} (begins : Stands r.source start)
    (keeps : ∀ a, Stands r.source a → ⦃unread r⦄ step a ⦃madeOpen r⦄) :
    ⦃unread r⦄ loop start step ⦃madeOpen r⦄ := loop_keeps begins keeps

theorem whilst_open {more : Parse Bool} {item : Parse α} (looks : ⦃unread r⦄ more ⦃keptOpen r⦄)
    (reads : ⦃unread r⦄ item ⦃madeOpen r⦄) : ⦃unread r⦄ whilst more item ⦃madeOpen r⦄ := by
  mvcgen [whilst, looks, reads, -whilst_made, -loop_made, loop_open]
  all_goals simp_all

end Loops

@[spec] theorem elementName_spec : ⦃unread r⦄ elementName ⦃madeOpen r⦄ := by
  mvcgen [elementName, -loop_made, loop_open] with simp_all

@[spec] theorem stringValue_spec : ⦃unread r⦄ stringValue ⦃madeOpen r⦄ := by
  mvcgen [stringValue] with simp_all
  case vc5.post.success.post.success.h_1 =>
    rename_i same _ read
    exact read.2 _ _ _ same

@[spec] theorem expressionValue_spec : ⦃unread r⦄ expressionValue g ⦃madeOpen r⦄ := by
  mvcgen [expressionValue] with simp_all

@[spec] theorem attributeValue_spec : ⦃unread r⦄ attributeValue g ⦃madeOpen r⦄ := by
  mvcgen [attributeValue] with simp_all

@[spec] theorem plainAttribute_spec : ⦃unread r⦄ plainAttribute g ⦃madeOpen r⦄ := by
  mvcgen [plainAttribute] with simp_all

@[spec] theorem spreadAttribute_spec : ⦃unread r⦄ spreadAttribute g ⦃madeOpen r⦄ := by
  mvcgen [spreadAttribute] with simp_all

@[spec] theorem openingRest_spec : ⦃unread r⦄ openingRest g ⦃madeOpen r⦄ := by
  mvcgen [openingRest, -whilst_made, whilst_open] with simp_all

theorem textEnd_onward (rest : Text) (index line line' : Nat) :
    Cursor.Onward ⟨rest, index, line'⟩ (textEnd rest index line) := by
  fun_induction textEnd rest index line generalizing line' with
  | case1 => exact .refl _
  | case2 rest index line ih => exact (Cursor.Onward.front [.char '\r', .char '\n'] rfl line).trans (ih _)
  | case3 => exact .refl _
  | case4 char rest index line _ _ ih => exact (Cursor.Onward.front [char] rfl line).trans (ih _)

@[spec] theorem text_spec : ⦃unread r⦄ text ⦃keptOpen r⦄ := by
  mvcgen [text]
  case vc1 s unread stop =>
  have onward : s.cursor.Onward stop := textEnd_onward _ _ _ _
  exact ⟨unread.1.trans onward.le, onward.place unread.2⟩

@[simp] theorem stands_close {source : Text} {p : Pending} {closing : List Node} :
    Stands source (p.close closing) ↔ (Stands source p.opening ∧ Stands source p.children) ∧ Stands source closing := by
  simp [Pending.close, and_assoc]

@[spec] theorem container_spec : ⦃unread r⦄ container g ⦃madeOpen r⦄ := by
  mvcgen [container] with simp_all

@[spec] theorem children_spec : ⦃unread r⦄ children g ⦃madeOpen r⦄ := by
  mvcgen [children, -loop_made, loop_open] with simp_all +zetaDelta

@[spec] theorem rest_spec (opening : Node) (stands : Stands r.source opening) :
    ⦃unread r⦄ rest g opening ⦃madeOpen r⦄ := by
  mvcgen [rest, -loop_made, loop_open] with simp_all +zetaDelta

@[simp] theorem fits_close {source : Text} {start stop : Nat} {p : Pending} {closing : List Node} :
    (p.close closing).Fits source start stop := trivial

@[spec] theorem element_spec : ⦃unread r⦄ element g
    ⦃⇓? node s => ⌜r.Open s ∧ Stands r.source node ∧ ∀ start stop, node.Fits r.source start stop⌝⦄ := by
  mvcgen [element] with simp_all

@[spec] theorem root_spec : ⦃ready r⦄ root g ⦃yields r⦄ := by
  mvcgen [root] with simp_all

end ClassMigration.Script.Element
