import ClassMigration.Proofs.Edits
import ClassMigration.Proofs.Stylesheet.PieceMentions
import ClassMigration.Proofs.Stylesheet.Respelling

/-! The edits that spell classes anew. Made in the source, they give a text whose pieces are the respelled
pieces; everything between them is copied with its own line ends. -/
namespace ClassMigration.Stylesheet

open Piece (textOf)
open Value (mentionsOf)

/-- The edit of a class that a swap replaces: its dot and name become names with dots. -/
def Swap.edit? (swap : Swap) (index : LineIndex) (m : Mention) : Option Edit :=
  (swap m.place m.name).map fun news => ⟨(m.part index).span, news.flatMap ('.' :: ·)⟩

/-- The edits, made from behind `b` on, give a text that is normalized to `t`. A line feed at its front was
there before. -/
def Spliced (source b : Text) (edits : List Edit) (t : Text) : Prop :=
  let k := (LineIndex.ofSource source).offset (Position.first.after b)
  ∃ out, Edit.splice source k edits = .ok out ∧ normalized out = t ∧
    (out.head? = some (.char '\n') → (source.drop k).head? = some (.char '\n'))

namespace Piece

theorem textOf_chain_dotted {news : List Text} (nonempty : news ≠ []) :
    .char '.' :: textOf (chain news) = news.flatMap (.char '.' :: ·) := by
  induction news with
  | nil => exact absurd rfl nonempty
  | cons n others ih =>
    cases others with
    | nil => simp [chain, textOf, text]
    | cons m others =>
      rw [chain_cons, List.flatMap_cons, ← ih (by simp)]
      simp [textOf, text]

end Piece

namespace Spliced

variable {source b w t rest : Text} {edits : List Edit}

theorem copy (spliced : Spliced source (b ++ w) edits t) (cut : normalized source = b ++ (w ++ rest)) :
    Spliced source b edits (w ++ t) := by
  obtain ⟨out, made, rfl, head⟩ := spliced
  have order := LineIndex.offset_le cut
  have between := LineIndex.normalized_slice cut
  have apart := @LineIndex.apart source (b ++ w) rest (by rw [cut]; simp)
  have bound := (LineIndex.offset_after source (b ++ w) rest (by rw [cut]; simp)).1
  simp only at apart bound
  unfold Spliced
  generalize (LineIndex.ofSource source).offset (Position.first.after b) = i at *
  generalize (LineIndex.ofSource source).offset (Position.first.after (b ++ w)) = j at *
  have drop := Text.slice_append_drop order source
  refine ⟨_, Edit.splice_earlier order made, ?_, ?_⟩
  · rw [normalized_append, between]
    rintro ⟨last, front⟩
    refine apart ⟨?_, head front⟩
    obtain ⟨s, ends⟩ := List.getLast?_eq_some_iff.mp last
    have whole := Text.slice_append (Nat.zero_le i) order source
    rw [ends, ← List.append_assoc] at whole
    have taken : source.take j = source.slice 0 j := rfl
    rw [taken, ← whole, List.getLast?_append]
    simp
  · intro front
    by_cases empty : source.slice i j = []
    · have same : i = j := by
        have length := Text.length_slice source i j
        rw [empty, Nat.min_eq_left bound, List.length_nil] at length
        omega
      rw [empty, List.nil_append] at front
      rw [same]
      exact head front
    · rw [List.head?_append_of_ne_nil _ empty] at front
      rw [← drop, List.head?_append_of_ne_nil _ empty]
      exact front

theorem replace {name : Text} {news : List Text} (plain : Plain name)
    (plains : ∀ n ∈ news, Plain n) (nonempty : news ≠ [])
    (spliced : Spliced source (b ++ .char '.' :: name) edits t)
    (cut : normalized source = b ++ (.char '.' :: name ++ rest)) :
    Spliced source b (⟨(Mention.part (LineIndex.ofSource source) ⟨Position.first.after b,
      Position.first.after (b ++ [.char '.']), name⟩).span, news.flatMap ('.' :: ·)⟩ :: edits)
      (news.flatMap (.char '.' :: ·) ++ t) := by
  obtain ⟨out, made, rfl, -⟩ := spliced
  have line : .char '\n' ∉ .char '.' :: name := by
    intro mem
    rcases List.mem_cons.mp mem with same | mem
    · exact absurd same (by decide)
    · exact (plain.untouched '\n' mem).1 rfl
  have stop := LineIndex.offset_append cut line
  rw [List.length_cons, Nat.add_comm name.length, ← Nat.add_assoc] at stop
  have untouched : ∀ c ∈ news.flatMap (.char '.' :: ·), Untouched c := by
    intro c mem
    obtain ⟨n, mem, own⟩ := List.mem_flatMap.mp mem
    rcases List.mem_cons.mp own with rfl | own
    · exact untouched_dot
    · exact (plains n mem).untouched c own
  obtain ⟨n, more, rfl⟩ := List.exists_cons_of_ne_nil nonempty
  refine ⟨(n :: more).flatMap (.char '.' :: ·) ++ out, ?_, normalized_append_of_untouched untouched out, ?_⟩
  · refine Edit.splice_cons_ok.mpr ⟨Nat.le_refl _, out, ?_, ?_⟩
    · rw [stop] at made
      simpa only [Mention.part, plain.ident_eq] using made
    · simp [Mention.part]
  · intro front
    exact absurd (Option.some.inj front) (by decide)

/-- A name that stays is copied; one that is replaced has its edit in front of the later edits. -/
theorem name {swap : Swap} (sound : swap.Sound (normalized source)) {dotted : Bool} {raw name : Text}
    (next : Spliced source (b ++ (pending dotted ++ raw)) edits t)
    (cut : normalized source = b ++ ((pending dotted ++ raw) ++ rest))
    (named : ∀ news, swap (Position.first.after (b ++ pending dotted)) name = some news → raw = name) :
    Spliced source b
      (((pendingAt dotted b).bind fun d =>
        swap.edit? (.ofSource source) ⟨d, Position.first.after (b ++ pending dotted), name⟩).toList ++ edits)
      (pending dotted ++
        (textOf (Piece.respelledName swap dotted (Position.first.after (b ++ pending dotted)) raw name) ++ t)) := by
  have kept := next.copy cut
  rw [List.append_assoc] at kept
  have single : textOf [.leaf raw (.ident name)] = raw := by simp [textOf, Piece.text]
  cases dotted with
  | false =>
    have stays : ∀ p, Piece.respelledName swap false p raw name = [.leaf raw (.ident name)] := fun _ => rfl
    rw [stays, single]
    exact kept
  | true =>
    change Spliced source b ((swap.edit? _ ⟨Position.first.after b, _, name⟩).toList ++ _) _
    rw [Swap.edit?]
    cases news : swap (Position.first.after (b ++ pending true)) name with
    | none =>
      rw [Piece.respelledName_none news, single]
      exact kept
    | some names =>
      obtain rfl := named names news
      have dots : pending true ++ (textOf (Piece.chain names) ++ t) = names.flatMap (.char '.' :: ·) ++ t := by
        rw [← Piece.textOf_chain_dotted (sound.nonempty news)]
        rfl
      rw [Piece.respelledName_some news, dots]
      exact next.replace (sound.plain news) (fun n mem => (sound.news news n mem).1)
        (sound.nonempty news) cut

end Spliced

namespace Piece

variable {swap : Swap} {source : Text}

def edits (swap : Swap) (index : LineIndex) (dot : Option Position) (p : Position)
    (pieces : List Piece) : List Edit :=
  (mentionsOf dot (valuesOf p pieces)).filterMap (swap.edit? index)

section

variable (swap : Swap) (index : LineIndex) (dot : Option Position) (p : Position) (raw : Text)
  (more : List Piece)

theorem edits_dot : edits swap index dot p (leaf raw .dot :: more) =
    edits swap index (some p) (p.after raw) more := rfl

theorem edits_ident (name : Text) : edits swap index dot p (leaf raw (.ident name) :: more) =
    (dot.bind fun d => swap.edit? index ⟨d, p, name⟩).toList ++
      edits swap index none (p.after raw) more := by
  change ((dot.map (Mention.mk · p name)).toList ++ mentionsOf none (valuesOf (p.after raw) more)).filterMap
    (swap.edit? index) = _
  rw [List.filterMap_append]
  cases dot with
  | none => rfl
  | some d =>
    change ([Mention.mk d p name].filterMap (swap.edit? index)) ++ _ = (swap.edit? index ⟨d, p, name⟩).toList ++ _
    cases edit : swap.edit? index ⟨d, p, name⟩ <;> simp [edit, edits]

theorem edits_other {lexemes : List Lexeme} (other : Scanner.Other lexemes) :
    edits swap index dot p (leaf raw (.other lexemes) :: more) =
      edits swap index none (p.after raw) more := by
  change (mentionsOf dot (lexemes.map (.token p) ++ valuesOf (p.after raw) more)).filterMap _ = _
  rw [Value.mentionsOf_other other]
  rfl

theorem edits_nest (opening : Opening) (inner : List Piece) (last : Text) :
    edits swap index dot p (nest raw opening inner last :: more) =
      edits swap index none (p.after raw) inner ++
        edits swap index none (p.after (raw ++ textOf inner ++ last)) more := by
  have mentions : mentionsOf dot (valuesOf p (nest raw opening inner last :: more)) =
      mentionsOf none (valuesOf (p.after raw) inner) ++
        mentionsOf none (valuesOf (p.after (raw ++ textOf inner ++ last)) more) := by
    cases opening <;> rfl
  rw [edits, mentions, List.filterMap_append]
  rfl

end

/-- Wherever the pieces are in the source, their edits can be made before later edits, and give the
respelled pieces. -/
def Splices (swap : Swap) (source : Text) (pieces : List Piece) (after : Text) : Prop :=
  ∀ (b : Text) (dotted : Bool) (later : List Edit) (t : Text),
    normalized source = b ++ (pending dotted ++ (textOf pieces ++ after)) →
    Spliced source (b ++ (pending dotted ++ textOf pieces)) later t →
    Spliced source b (edits swap (.ofSource source) (pendingAt dotted b)
        (Position.first.after (b ++ pending dotted)) pieces ++ later)
      (pending dotted ++
        (textOf (respelledAll swap dotted (Position.first.after (b ++ pending dotted)) pieces) ++ t))

theorem Splices.plain {pieces : List Piece} {after : Text} (splices : Splices swap source pieces after)
    (b s w : Text) {later : List Edit} {t : Text}
    (place : normalized source = b ++ (s ++ w) ++ (textOf pieces ++ after))
    (spliced : Spliced source (b ++ (s ++ w) ++ textOf pieces) later t) :
    Spliced source (b ++ (s ++ w))
      (edits swap (.ofSource source) none ((Position.first.after (b ++ s)).after w) pieces ++ later)
      (textOf (respelledAll swap false ((Position.first.after (b ++ s)).after w) pieces) ++ t) := by
  have whole := splices (b ++ (s ++ w)) false later t place spliced
  change Spliced source _ (edits swap _ none (Position.first.after (_ ++ [])) pieces ++ later)
    (textOf (respelledAll swap false (Position.first.after (_ ++ [])) pieces) ++ t) at whole
  rw [List.append_nil] at whole
  rw [← Position.after_append, List.append_assoc]
  exact whole

end Piece

/-- The edits of a swap give the text that is spelled anew. -/
theorem Scans.splices {swap : Swap} {source : Text} {closing : Option CodePoint} {pieces : List Piece}
    {after : Text} (scans : Scans closing pieces after) (sound : swap.Sound (normalized source)) :
    Piece.Splices swap source pieces after := by
  induction scans with
  | stop =>
    intro b dotted later t place spliced
    rw [textOf, List.append_nil] at spliced
    exact spliced.copy place
  | @leaf closing c w kind more after head reading fits rest ih =>
    intro b dotted later t place spliced
    have text : textOf (.leaf (c :: w) kind :: more) = (c :: w) ++ textOf more := rfl
    rw [text] at spliced
    rw [Piece.textOf_leaf] at place
    have next := ih.plain b (pending dotted) (c :: w) (by rw [place]; simp) (by simpa using spliced)
    have cut : normalized source = b ++ ((pending dotted ++ (c :: w)) ++ (textOf more ++ after)) := by
      rw [place, List.append_assoc _ (c :: w)]
    cases kind with
    | dot =>
      obtain ⟨rfl, rfl⟩ := Leaf.eq_dot_of_fits fits
      have behind := ih (b ++ pending dotted) true later t (by rw [place]; simp [pending])
        (by rw [List.append_assoc]; exact spliced)
      rw [Position.after_append _ (b ++ pending dotted)] at behind
      rw [Piece.edits_dot]
      exact behind.copy place
    | ident name =>
      have named : ∀ names, swap (Position.first.after (b ++ pending dotted)) name = some names →
          c :: w = name := by
        intro names news
        have opens := sound.opens (by rw [place, List.append_assoc]) news
        exact (Scanner.read_ident_plain (Nat.le_refl _) (reading _ (Nat.le_refl _)) (sound.plain news) opens).1
      rw [Piece.edits_ident, List.append_assoc]
      change Spliced source b _ (pending dotted ++ (textOf (Piece.respelledName swap dotted _ (c :: w) name ++
        Piece.respelledAll swap false _ more) ++ t))
      rw [Piece.textOf_append, List.append_assoc (textOf _)]
      exact next.name sound cut named
    | other lexemes =>
      rw [Piece.edits_other _ _ _ _ _ _ fits]
      change Spliced source b _ (pending dotted ++ (((c :: w) ++ textOf (Piece.respelledAll swap false _ more)) ++ t))
      rw [List.append_assoc (c :: w), ← List.append_assoc (pending dotted)]
      exact next.copy cut
  | @nest closing c w opening inner more last after head reading fits closed inside rest ihInside ih =>
    intro b dotted later t place spliced
    let p := Position.first.after (b ++ pending dotted)
    have text : textOf (.nest (c :: w) opening inner last :: more) =
        (c :: w) ++ textOf inner ++ last ++ textOf more := rfl
    rw [text] at place spliced
    have behind := ih.plain b (pending dotted) ((c :: w) ++ textOf inner ++ last) (by rw [place]; simp)
      (by simpa using spliced)
    have join : b ++ (pending dotted ++ ((c :: w) ++ textOf inner ++ last)) =
        b ++ (pending dotted ++ (c :: w)) ++ textOf inner ++ last := by simp
    rw [join] at behind
    have closes := @Spliced.copy _ _ last _ (textOf more ++ after) _ behind (by rw [place]; simp)
    have within := ihInside.plain b (pending dotted) (c :: w) (by rw [place]; simp) closes
    have whole := @Spliced.copy _ _ (pending dotted ++ (c :: w)) _
      (textOf inner ++ (last ++ (textOf more ++ after))) _ within (by rw [place]; simp)
    rw [Piece.edits_nest]
    simpa [textOf, Piece.text, Piece.respelledAll, Piece.respelled, Piece.isDot] using whole

end ClassMigration.Stylesheet
