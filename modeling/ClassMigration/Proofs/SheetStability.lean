import ClassMigration.StylesheetMigration
import ClassMigration.Proofs.KeyedTable
import ClassMigration.Proofs.Stylesheet.RespelledText
import ClassMigration.Proofs.Stylesheet.RespelledValues
import ClassMigration.Proofs.Stylesheet.RuleMentions
import Mathlib.Data.List.Nodup

/-! A migrated stylesheet is left alone by the same migration. The edits of a sheet swap some of its classes
for new ones; the swapped sheet is cut into the respelled pieces, so its rules are those of the sheet up to
the swapped classes. A new class is not deprecated, and a deprecated class that stayed is escaped. -/
namespace ClassMigration

namespace Stylesheet

open Piece (textOf)
open Value (mentionsOf)

theorem Scans.depthOf_le {closing : Option CodePoint} {pieces : List Piece} {after : Text}
    (scans : Scans closing pieces after) (p : Position) :
    Value.depthOf (Piece.valuesOf p pieces) ≤ (textOf pieces).length := by
  induction scans generalizing p with
  | stop => exact Nat.le_refl _
  | @leaf closing c w kind more after head reading fits rest ih =>
    have flat : ∀ (lexemes : List Lexeme) (vs : List Value),
        Value.depthOf (lexemes.map (.token p) ++ vs) = Value.depthOf vs := by
      intro lexemes vs
      induction lexemes with
      | nil => rfl
      | cons l lexemes ih => simpa [Value.depthOf, Value.depth] using ih
    have next := ih (p.after (c :: w))
    rw [Piece.valuesOf, Piece.values, flat, textOf, Piece.text, List.length_append]
    omega
  | @nest closing c w opening inner more last after head reading fits closed inside rest ihInside ih =>
    have within := ihInside (p.after (c :: w))
    have next := ih (p.after ((c :: w) ++ textOf inner ++ last))
    have depth : Value.depthOf (Piece.valuesOf p (.nest (c :: w) opening inner last :: more)) =
        max (Value.depthOf (Piece.valuesOf (p.after (c :: w)) inner) + 1)
          (Value.depthOf (Piece.valuesOf (p.after ((c :: w) ++ textOf inner ++ last)) more)) := by
      cases opening <;> rfl
    rw [depth, textOf, Piece.text]
    simp only [List.length_append, List.length_cons]
    omega

theorem Alike.prefix {n t t' : Text} (h : Alike t t') (free : .char '.' ∉ n) (opens : n <+: t') : n <+: t := by
  induction h generalizing n with
  | same => exact opens
  | dot letter s s' =>
    cases n with
    | nil => exact List.nil_prefix
    | cons d n =>
      obtain ⟨rfl, -⟩ := List.cons_prefix_cons.mp opens
      exact absurd List.mem_cons_self free
  | cons c h ih =>
    cases n with
    | nil => exact List.nil_prefix
    | cons d n =>
      obtain ⟨rfl, rest⟩ := List.cons_prefix_cons.mp opens
      simp only [List.mem_cons, not_or] at free
      exact List.cons_prefix_cons.mpr ⟨rfl, ih free.2 rest⟩

/-- A class with a plain name stands as it is in the source where its dot and name do. -/
theorem Mention.text_eq_iff {source a rest : Text} {m : Mention} (cut : normalized source = a ++ rest)
    (dot : m.dot = Position.first.after a) (plain : Plain m.name) :
    (m.part (LineIndex.ofSource source)).span.text source = .char '.' :: m.name ↔ .char '.' :: m.name <+: rest := by
  have after := (LineIndex.offset_after source a rest cut).2.2
  have untouched : ∀ c ∈ .char '.' :: m.name, Untouched c :=
    List.forall_mem_cons.mpr ⟨untouched_dot, plain.untouched⟩
  rw [Mention.part, Span.text_mk, plain.ident_eq, dot, Nat.add_assoc, Nat.add_comm 1,
    ← List.length_cons (a := CodePoint.char '.'), Text.slice_eq_iff, ← untouched_isPrefix_normalized untouched]
  rw [after]

theorem SimilarRule.exists_left {r : Respect} {index index' : LineIndex} {rules rules' : List StyleRule}
    (similar : List.Forall₂ (SimilarRule r index index') rules rules') :
    ∀ rule' ∈ rules', ∃ rule ∈ rules, SimilarRule r index index' rule rule' := by
  induction similar with
  | nil => intro rule' mem; cases mem
  | cons same _ ih =>
    intro rule' mem
    rcases List.mem_cons.mp mem with rfl | later
    · exact ⟨_, List.mem_cons_self, same⟩
    · obtain ⟨rule, own, same⟩ := ih rule' later
      exact ⟨rule, List.mem_cons_of_mem _ own, same⟩

def classesIn (rules : List StyleRule) : List ClassPart := rules.flatMap fun rule => Part.classesOf rule.parts

end Stylesheet

open Stylesheet
open Piece (textOf)
open Value (mentionsOf)

namespace Migration

variable (migration : Migration) (source : Text)

/-- The edit of a class. -/
def classEdit? (part : ClassPart) : Option Edit :=
  (migration.table.withName? part.name).bind fun entry =>
    if part.span.text source = entry.oldToken then some ⟨part.span, entry.newToken⟩ else none

theorem selectorEdits_eq (rule : StyleRule) : migration.selectorEdits source rule =
    (Part.classesOf rule.parts).filterMap (migration.classEdit? source) := by
  rw [selectorEdits, selectorMatches, List.filterMap_filterMap]
  refine congrArg (List.filterMap · _) (funext fun part => ?_)
  cases found : migration.table.withName? part.name with
  | none => simp [classEdit?, found]
  | some entry => simp [classEdit?, found, selectorEdit?]

theorem sheet_edits (rules : List StyleRule) : Sheet.edits ⟨source, rules⟩ [migration] =
    (classesIn rules).filterMap (migration.classEdit? source) := by
  simp only [Sheet.edits, classesIn, List.flatMap_cons, List.flatMap_nil, List.append_nil,
    List.filterMap_flatMap]
  exact congrArg (List.flatMap · rules) (funext (migration.selectorEdits_eq source))

/-- Some class of the list with this name, directly before the place, is edited. -/
def Edited (classes : List ClassPart) (p : Position) (name : Text) : Prop :=
  ∃ c ∈ classes, c.name = name ∧ c.span.start + 1 = (LineIndex.ofSource source).offset p ∧
    (migration.classEdit? source c).isSome

instance (classes : List ClassPart) (p : Position) (name : Text) :
    Decidable (migration.Edited source classes p name) :=
  inferInstanceAs (Decidable (∃ c ∈ classes, c.name = name ∧
    c.span.start + 1 = (LineIndex.ofSource source).offset p ∧ (migration.classEdit? source c).isSome))

def swap (classes : List ClassPart) : Swap := fun p name =>
  if migration.Edited source classes p name then
    (migration.table.withName? name).map Deprecation.newNames
  else none

variable {migration source} {classes : List ClassPart}

theorem classEdit?_eq_some {c : ClassPart} {edit : Edit} :
    migration.classEdit? source c = some edit ↔ ∃ entry, migration.table.withName? c.name = some entry ∧
      c.span.text source = entry.oldToken ∧ edit = ⟨c.span, entry.newToken⟩ := by
  rw [classEdit?, Option.bind_eq_some_iff]
  refine exists_congr fun entry => and_congr_right fun _ => ?_
  by_cases holds : c.span.text source = entry.oldToken
  · rw [if_pos holds]
    simp [holds, eq_comm]
  · rw [if_neg holds]
    simp [holds]

theorem swap_eq_some {p : Position} {name : Text} {news : List Text} :
    migration.swap source classes p name = some news ↔ migration.Edited source classes p name ∧
      ∃ entry, migration.table.withName? name = some entry ∧ entry.newNames = news := by
  rw [swap]
  by_cases holds : migration.Edited source classes p name
  · rw [if_pos holds, Option.map_eq_some_iff]
    simp [holds]
  · rw [if_neg holds]
    simp [holds]

theorem Edited.opens {stem : Text} (keyed : migration.table.FromKeys stem) {a rest name : Text}
    (cut : normalized source = a ++ rest)
    (edited : migration.Edited source classes (Position.first.after a) name) : name <+: rest := by
  obtain ⟨c, -, rfl, place, isEdit⟩ := edited
  obtain ⟨edit, found⟩ := Option.isSome_iff_exists.mp isEdit
  obtain ⟨entry, named, text, -⟩ := classEdit?_eq_some.mp found
  obtain ⟨mem, own⟩ := Deprecation.Table.withName?_eq_some_iff.mp named
  have after := (LineIndex.offset_after source a rest cut).2.2
  rw [← place] at after
  rw [← after, ← own, untouched_isPrefix_normalized (keyed.plain_oldName mem).untouched]
  have opens : c.span.text source <+: source.drop c.span.start := by
    rw [Span.text, Text.slice, List.drop_take]
    exact List.take_prefix _ _
  rw [text, keyed.oldToken_eq mem] at opens
  obtain ⟨more, same⟩ := opens
  refine ⟨more, ?_⟩
  rw [← List.drop_drop, ← same]
  rfl

theorem swap_sound {stem : Text} (keyed : migration.table.FromKeys stem) (classes : List ClassPart) :
    (migration.swap source classes).Sound (normalized source) where
  plain swapped := by
    obtain ⟨-, entry, named, -⟩ := swap_eq_some.mp swapped
    obtain ⟨mem, rfl⟩ := Deprecation.Table.withName?_eq_some_iff.mp named
    exact keyed.plain_oldName mem
  nonempty swapped := by
    obtain ⟨-, entry, named, rfl⟩ := swap_eq_some.mp swapped
    exact keyed.newNames_ne_nil (Deprecation.Table.withName?_eq_some_iff.mp named).1
  news swapped := by
    obtain ⟨-, entry, named, rfl⟩ := swap_eq_some.mp swapped
    obtain ⟨mem, rfl⟩ := Deprecation.Table.withName?_eq_some_iff.mp named
    exact keyed.plain_newNames mem
  opens cut swapped := (swap_eq_some.mp swapped).1.opens keyed cut

end Migration

namespace Stylesheet

variable {source : Text} {m n : Mention} {ms all : List Mention}

theorem Mention.Inside.joined (inside : m.Inside [] (normalized source)) :
    (LineIndex.ofSource source).offset m.place = (LineIndex.ofSource source).offset m.dot + 1 := by
  obtain ⟨x, y, cut, dot, place⟩ := inside
  rw [dot, place]
  exact @LineIndex.offset_append _ ([] ++ x) [.char '.'] y (by rw [cut]; simp) (by decide)

theorem Mention.Row.nodup_dots {b t : Text} (row : Row b t all) : (all.map Mention.dot).Nodup :=
  List.pairwise_map.mpr (row.2.imp Later.ne)

/-- A dot's offset in the source tells where the dot is. -/
theorem Mention.Inside.dot_eq (inside : m.Inside [] (normalized source))
    (inside' : n.Inside [] (normalized source))
    (same : (LineIndex.ofSource source).offset m.dot = (LineIndex.ofSource source).offset n.dot) :
    m.dot = n.dot := by
  obtain ⟨x, y, cut, dot, -⟩ := inside
  obtain ⟨x', y', cut', dot', -⟩ := inside'
  have before := (LineIndex.offset_after source x _ cut).2.1
  have before' := (LineIndex.offset_after source x' _ cut').2.1
  rw [List.nil_append] at dot dot'
  rw [dot, dot'] at same
  rw [dot, dot', ← before, same, before']

theorem Mention.Row.eq_of_offset (row : Row [] (normalized source) all) (mem : m ∈ all) (mem' : n ∈ all)
    (same : (LineIndex.ofSource source).offset m.dot = (LineIndex.ofSource source).offset n.dot) :
    m = n :=
  List.inj_on_of_nodup_map row.nodup_dots mem mem' ((row.1 m mem).dot_eq (row.1 n mem') same)

/-- What some of the members give is what all give, when the others give nothing. -/
theorem filterMap_of_sublist {α β : Type} {some all : List α} (sub : some.Sublist all) (nodup : all.Nodup)
    {f g : α → Option β} (on : ∀ a ∈ some, g a = f a) (off : ∀ a ∈ all, a ∉ some → g a = none) :
    all.filterMap g = some.filterMap f := by
  induction sub with
  | slnil => rfl
  | @cons some all a sub ih =>
    obtain ⟨fresh, nodup⟩ := List.nodup_cons.mp nodup
    have gone := off a List.mem_cons_self fun mem => fresh (sub.subset mem)
    rw [List.filterMap_cons_none gone]
    exact ih nodup on fun b mem => off b (List.mem_cons_of_mem a mem)
  | @cons_cons some all a sub ih =>
    obtain ⟨fresh, nodup⟩ := List.nodup_cons.mp nodup
    have rest := ih nodup (fun b mem => on b (List.mem_cons_of_mem a mem)) fun b mem away =>
      off b (List.mem_cons_of_mem a mem) fun inside => by
        rcases List.mem_cons.mp inside with rfl | inside
        · exact fresh mem
        · exact away inside
    rw [List.filterMap_cons, List.filterMap_cons, on a List.mem_cons_self, rest]

end Stylesheet

namespace Migration

variable {migration : Migration} {stem source : Text}

theorem classEdits_eq (keyed : migration.table.FromKeys stem) {ms all : List Mention}
    (row : Mention.Row [] (normalized source) all) (sub : ms.Sublist all) {classes : List ClassPart}
    (made : classes = ms.map (Mention.part (.ofSource source))) :
    classes.filterMap (migration.classEdit? source) =
      all.filterMap ((migration.swap source classes).edit? (.ofSource source)) := by
  have known : ∀ m ∈ all, migration.Edited source classes m.place m.name →
      m ∈ ms ∧ (migration.classEdit? source (m.part (.ofSource source))).isSome := by
    rintro m mem ⟨c, inside, -, place, isEdit⟩
    rw [made] at inside
    obtain ⟨n, mem', rfl⟩ := List.mem_map.mp inside
    rw [(row.1 m mem).joined] at place
    obtain rfl := row.eq_of_offset (sub.subset mem') mem (Nat.succ.inj place)
    exact ⟨mem', isEdit⟩
  have nodup : all.Nodup := List.Nodup.of_map _ row.nodup_dots
  rw [made, List.filterMap_map, ← made]
  refine (filterMap_of_sublist sub nodup ?_ ?_).symm
  · intro m mem
    rw [Function.comp_apply, Swap.edit?]
    cases swapped : migration.swap source classes m.place m.name with
    | none =>
      cases found : migration.classEdit? source (m.part (.ofSource source)) with
      | none => rfl
      | some edit =>
        obtain ⟨entry, named, -⟩ := classEdit?_eq_some.mp found
        have here : m.part (.ofSource source) ∈ classes := made ▸ List.mem_map_of_mem mem
        have edited : migration.Edited source classes m.place m.name :=
          ⟨_, here, rfl, (row.1 m (sub.subset mem)).joined.symm, by rw [found]; rfl⟩
        rw [swap_eq_some.mpr ⟨edited, entry, named, rfl⟩] at swapped
        cases swapped
    | some news =>
      obtain ⟨edited, entry, named, rfl⟩ := swap_eq_some.mp swapped
      obtain ⟨edit, found⟩ := Option.isSome_iff_exists.mp (known m (sub.subset mem) edited).2
      obtain ⟨entry', named', -, rfl⟩ := classEdit?_eq_some.mp found
      obtain rfl : entry = entry' := Option.some.inj (named.symm.trans named')
      obtain ⟨-, -, -, -, token⟩ := keyed.newNames_eq (Deprecation.Table.withName?_eq_some_iff.mp named).1
      rw [found, token]
      rfl
  · intro m mem away
    rw [Swap.edit?, Option.map_eq_none_iff]
    cases swapped : migration.swap source classes m.place m.name with
    | none => rfl
    | some news => exact absurd (known m mem (swap_eq_some.mp swapped).1).1 away

theorem edit_filled {all : List Mention} {swap : Swap} {index : LineIndex} :
    ∀ edit ∈ all.filterMap (swap.edit? index), edit.span.start < edit.span.stop := by
  intro edit mem
  obtain ⟨m, -, made⟩ := List.mem_filterMap.mp mem
  obtain ⟨news, -, rfl⟩ := Option.map_eq_some_iff.mp made
  exact Nat.lt_add_right _ (Nat.lt_succ_self _)

/-- A class of the output that stands as it stood in the source, and has the text of a deprecated class, was
replaced in the source. -/
theorem swap_of_kept (keyed : migration.table.FromKeys stem) {rules : List StyleRule} {rule : StyleRule}
    (mem : rule ∈ rules) {prelude : List Value} (parts : rule.parts = Part.ofValues (.ofSource source) prelude)
    {m m' : Mention} (selected : m ∈ Value.selectedOf .other prelude) (same : m.name = m'.name)
    {out a a' t t' : Text} (alike : Alike t t') (cut : normalized source = a ++ .char '.' :: t)
    (cut' : normalized out = a' ++ .char '.' :: t') (dot : m.dot = Position.first.after a)
    (dot' : m'.dot = Position.first.after a') (place : m.place = Position.first.after (a ++ [.char '.']))
    {entry : Deprecation} (named : migration.table.withName? m'.name = some entry)
    (text : (m'.part (.ofSource out)).span.text out = entry.oldToken) :
    migration.swap source (classesIn rules) m.place m.name = some entry.newNames := by
  obtain ⟨entryMem, own⟩ := Deprecation.Table.withName?_eq_some_iff.mp named
  have plain : Plain m'.name := own ▸ keyed.plain_oldName entryMem
  have token := keyed.oldToken_eq entryMem
  rw [own] at token
  have opens' := (Mention.text_eq_iff cut' dot' plain).mp (text.trans token)
  have opens := alike.prefix plain.no_dot (List.cons_prefix_cons.mp opens').2
  have before : (m.part (.ofSource source)).span.text source = .char '.' :: m.name :=
    (Mention.text_eq_iff cut dot (same ▸ plain)).mpr (List.cons_prefix_cons.mpr ⟨rfl, same ▸ opens⟩)
  have joined : (LineIndex.ofSource source).offset m.place = (LineIndex.ofSource source).offset m.dot + 1 :=
    Mention.Inside.joined ⟨a, t, cut, dot, place⟩
  have here : m.part (.ofSource source) ∈ classesIn rules := by
    refine List.mem_flatMap.mpr ⟨rule, mem, ?_⟩
    rw [parts, Part.classesOf_ofValues]
    exact List.mem_map_of_mem (List.mem_filter.mpr ⟨selected, beq_iff_eq.mpr joined⟩)
  have named' : migration.table.withName? m.name = some entry := by rw [same, named]
  have isEdit : migration.classEdit? source (m.part (.ofSource source)) = some ⟨_, entry.newToken⟩ :=
    classEdit?_eq_some.mpr ⟨entry, named', by rw [before, token, same], rfl⟩
  exact swap_eq_some.mpr ⟨⟨_, here, rfl, joined.symm, by rw [isEdit]; rfl⟩, entry, named', rfl⟩

/-- In the output no class is edited: one that came in is not deprecated, and one that was kept stands as it
stood in the source, where it was not edited. -/
theorem classEdit?_output (keyed : migration.table.FromKeys stem) (sound : migration.table.problems = [])
    {rules : List StyleRule} {out : Text} {rule rule' : StyleRule} (mem : rule ∈ rules)
    (similar : SimilarRule (respect (migration.swap source (classesIn rules)) (normalized source)
      (normalized out)) (.ofSource source) (.ofSource out) rule rule') :
    ∀ c ∈ Part.classesOf rule'.parts, migration.classEdit? out c = none := by
  obtain ⟨prelude, prelude', values, parts, parts'⟩ := similar
  intro c inside
  rw [parts', Part.classesOf_ofValues] at inside
  obtain ⟨m', found', rfl⟩ := List.mem_map.mp inside
  obtain ⟨selected', -⟩ := List.mem_filter.mp found'
  rw [Option.eq_none_iff_forall_ne_some]
  intro edit found
  obtain ⟨entry, named, text, -⟩ := classEdit?_eq_some.mp found
  change migration.table.withName? m'.name = some entry at named
  rcases Value.accounted_of_similar values .other m' selected' with
    ⟨p, name, news, swapped, isNew⟩ | ⟨m, selected, same, stays, a, a', t, t', alike, cut, cut', dots, places⟩
  · obtain ⟨-, entry', named', rfl⟩ := swap_eq_some.mp swapped
    have fresh := Deprecation.Table.withName?_newName sound
      (Deprecation.Table.withName?_eq_some_iff.mp named').1 isNew
    rw [named] at fresh
    cases fresh
  · obtain ⟨dot, dot'⟩ := Prod.mk.inj dots
    obtain ⟨place, -⟩ := Prod.mk.inj places
    rw [swap_of_kept keyed mem parts selected same alike cut cut' dot dot' place named text] at stays
    cases stays

theorem read_eq_ok {sheet : Sheet} : Sheet.read source = .ok sheet ↔ ∃ rules, sheet = ⟨source, rules⟩ ∧
    Item.rulesOf (.ofSource source) [] (Item.ofValues (source.length + 1) .sheet (valuesOf source)) =
      .ok rules := by
  rw [Sheet.read, Sheet.items]
  cases Item.rulesOf (.ofSource source) []
    (Item.ofValues (source.length + 1) .sheet (valuesOf source)) with
  | error => simp [Except.map]
  | ok rules => simp [Except.map, eq_comm]

theorem ofEdits_of_splice {edits : List Edit} {out : Text} (made : Edit.splice source 0 edits = .ok out)
    (filled : ∀ edit ∈ edits, edit.span.start < edit.span.stop) :
    ∃ first, Outcome.ofEdits source edits = .ok first ∧ first.output = out := by
  cases edits with
  | nil => exact ⟨Outcome.unchanged source, rfl, Except.ok.inj made⟩
  | cons edit more =>
    refine ⟨⟨source, out, .changed, (edit :: more).length⟩, ?_, rfl⟩
    rw [Outcome.ofEdits, Edit.applyAll_of_splice made filled]
    rfl

theorem swapped_rules {swap : Swap} (swapSound : swap.Sound (normalized source)) {pieces : List Piece}
    (text : textOf pieces = normalized source) (scans : Scans none pieces []) {rules : List StyleRule}
    (read : Item.rulesOf (.ofSource source) [] (Item.ofValues (source.length + 1) .sheet (valuesOf source)) =
      .ok rules) :
    ∃ out rules', Edit.splice source 0 ((mentionsOf none (Piece.valuesOf .first pieces)).filterMap
        (swap.edit? (.ofSource source))) = .ok out ∧ Sheet.read out = .ok ⟨out, rules'⟩ ∧
      List.Forall₂ (SimilarRule (respect swap (normalized source) (normalized out)) (.ofSource source)
        (.ofSource out)) rules rules' := by
  have place : normalized source = [] ++ (textOf pieces ++ []) := by simp [text]
  have last : Spliced source ([] ++ (pending false ++ textOf pieces)) [] [] :=
    ⟨_, rfl, (LineIndex.offset_after source (textOf pieces) [] (by simp [text])).2.2, id⟩
  obtain ⟨out, made, normal, -⟩ := scans.splices swapSound [] false [] [] place last
  have start : (LineIndex.ofSource source).offset (Position.first.after []) = 0 := rfl
  rw [start, List.append_nil] at made
  have normal' : normalized out = [] ++
      (textOf (Piece.respelledAll swap false (Position.first.after []) pieces) ++ []) := normal
  have again := (scans.respelledAll swapSound (by simp) false [] [] place (.same [])).1
  have similar := scans.similar swapSound (by simp) (.no [] []) place normal' (.same [])
  rw [List.nil_append, List.append_nil] at normal'
  have values := Scans.valuesOf_eq text scans
  have values' := Scans.valuesOf_eq normal'.symm again
  have bound := scans.depthOf_le .first
  have bound' := again.depthOf_le .first
  have short := length_normalized_le source
  have short' := length_normalized_le out
  rw [text] at bound
  rw [← normal'] at bound'
  have shallow := Nat.lt_succ_of_le (Nat.le_trans bound short)
  have shallow' := Nat.lt_succ_of_le (Nat.le_trans bound' short')
  rw [values] at read
  obtain ⟨rules', read', each⟩ := Item.rulesOf_similar similar shallow shallow' read
  exact ⟨out, rules', made, read_eq_ok.mpr ⟨rules', rfl, by rw [values']; exact read'⟩, each⟩

theorem editSheet_of_read {migrations : List Migration} {sheet : Sheet} (read : Sheet.read source = .ok sheet)
    (file : Option Text) : editSheet migrations source file =
      (Outcome.ofEdits source (sheet.edits migrations)).mapError Failure.overlap := by
  rw [editSheet, read]
  rfl

/-- What a migration makes of a stylesheet that can be read can be read again, and stays as it is. -/
theorem editSheet_stable (keyed : migration.table.FromKeys stem) (sound : migration.table.problems = [])
    (readable : (Sheet.read source).isOk) (file file' : Option Text) :
    ∃ first, editSheet [migration] source file = .ok first ∧
      editSheet [migration] first.output file' = .ok (Outcome.unchanged first.output) := by
  obtain ⟨sheet, readable⟩ : ∃ sheet, Sheet.read source = .ok sheet := by
    cases read : Sheet.read source with
    | error fault =>
      rw [read] at readable
      cases readable
    | ok sheet => exact ⟨sheet, rfl⟩
  obtain ⟨rules, rfl, read⟩ := read_eq_ok.mp readable
  obtain ⟨pieces, text, scans⟩ := Scans.exists_whole (normalized source)
  have row : Mention.Row [] (normalized source) (mentionsOf none (Piece.valuesOf .first pieces)) := by
    rw [← text]
    exact scans.inRow [] false
  obtain ⟨ms, sub, made⟩ := Item.madeBy_ofValues read
  rw [Scans.valuesOf_eq text scans] at sub
  have made : classesIn rules = ms.map (Mention.part (.ofSource source)) := made
  have edits := classEdits_eq keyed row sub made
  obtain ⟨out, rules', spliced, readable', each⟩ :=
    swapped_rules (swap_sound keyed (classesIn rules)) text scans read
  obtain ⟨first, outcome, rfl⟩ := ofEdits_of_splice spliced edit_filled
  have again : Sheet.edits ⟨first.output, rules'⟩ [migration] = [] := by
    rw [sheet_edits, List.filterMap_eq_nil_iff]
    intro c mem
    obtain ⟨rule', mem', inside⟩ := List.mem_flatMap.mp mem
    obtain ⟨rule, here, similar⟩ := SimilarRule.exists_left each rule' mem'
    exact classEdit?_output keyed sound here similar c inside
  refine ⟨first, ?_, ?_⟩
  · rw [editSheet_of_read readable, sheet_edits, edits, outcome]
    rfl
  · rw [editSheet_of_read readable', again]
    rfl

/-- A sheet with a deprecated class of alerts stays after its migration. -/
theorem alertSheet_stable : let source := ".MuiAlert-standardSuccess{}".codePoints
    ∃ first, editSheet [alert] source none = .ok first ∧
      editSheet [alert] first.output none = .ok (Outcome.unchanged first.output) :=
  editSheet_stable alert_fromKeys (by decide +kernel) (by decide +kernel) none none

end Migration

end ClassMigration
