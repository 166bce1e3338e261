import Mathlib.Data.List.Induction
import ClassMigration.FileTree
import ClassMigration.Proofs.KeyedTable

/-! Paths that lead on from a directory by plain names. Their steps are those of the directory's path and the names
behind it, and they lead from the directory through these names. -/
namespace ClassMigration

namespace Text

variable {separator : CodePoint} {names : List Text} {text : Text}

theorem pieces_ne_nil (separator : CodePoint) (text : Text) : pieces separator text ≠ [] := by
  cases text with
  | nil => simp [pieces]
  | cons c rest =>
    rw [pieces]
    split
    · simp
    · split <;> simp

theorem pieces_append_separator (front back : Text) :
    pieces separator (front ++ separator :: back) = pieces separator front ++ pieces separator back := by
  induction front with
  | nil => simp [pieces]
  | cons c rest ih =>
    rw [List.cons_append, pieces, pieces, ih]
    split
    · rfl
    · cases own : pieces separator rest with
      | nil => exact absurd own (pieces_ne_nil separator rest)
      | cons piece more => rfl

theorem joined_cons (some : names ≠ []) (separator name : Text) :
    joined separator (name :: names) = name ++ separator ++ joined separator names := by
  obtain ⟨next, more, rfl⟩ := List.exists_cons_of_ne_nil some
  rfl

theorem joined_pieces (separator : CodePoint) (text : Text) : joined [separator] (pieces separator text) = text := by
  induction text with
  | nil => rfl
  | cons c rest ih =>
    rw [pieces]
    cases own : pieces separator rest with
    | nil => exact absurd own (pieces_ne_nil separator rest)
    | cons piece more =>
      rw [own] at ih
      split
      case isTrue same =>
        rw [joined_cons (List.cons_ne_nil _ _), ih, same]
        rfl
      case isFalse =>
        cases more with
        | nil => exact congrArg (c :: ·) ih
        | cons next more => exact congrArg (c :: ·) ih

theorem joined_concat (some : names ≠ []) (separator name : Text) :
    joined separator (names ++ [name]) = joined separator names ++ separator ++ name := by
  induction names with
  | nil => exact absurd rfl some
  | cons first more ih =>
    by_cases last : more = []
    · subst last
      rfl
    · rw [List.cons_append, joined_cons (by simp), joined_cons last, ih last]
      simp

theorem mem_of_mem_pieces {piece : Text} {c : CodePoint} (isPiece : piece ∈ pieces separator text) (mem : c ∈ piece) :
    c ∈ text := by
  induction text generalizing piece with
  | nil => simp_all [pieces]
  | cons d rest ih =>
    rw [pieces] at isPiece
    split at isPiece
    case isTrue =>
      rcases List.mem_cons.mp isPiece with rfl | isPiece
      · cases mem
      · exact List.mem_cons_of_mem d (ih isPiece mem)
    case isFalse =>
      split at isPiece
      case h_1 => simp_all
      case h_2 first more same =>
        rcases List.mem_cons.mp isPiece with rfl | isPiece
        · rcases List.mem_cons.mp mem with rfl | mem
          · exact List.mem_cons_self
          · exact List.mem_cons_of_mem d (ih (same ▸ List.mem_cons_self) mem)
        · exact List.mem_cons_of_mem d (ih (same ▸ List.mem_cons_of_mem first isPiece) mem)

theorem pieces_joined (some : names ≠ []) (free : ∀ name ∈ names, separator ∉ name) :
    pieces separator (joined [separator] names) = names := by
  induction names with
  | nil => exact absurd rfl some
  | cons name more ih =>
    obtain ⟨own, free⟩ := List.forall_mem_cons.mp free
    by_cases last : more = []
    · subst last
      exact pieces_of_notMem own
    · rw [joined_cons last, List.append_assoc, List.singleton_append, pieces_append own, ih last free]

end Text

namespace Path

/-- The name takes a path one step down: it is neither empty nor cut by a slash, and it is none of the two that stay
or lead up. -/
structure Plain (name : Text) : Prop where
  filled : name ≠ []
  whole : .char '/' ∉ name
  notHere : name ≠ [.char '.']
  notUp : name ≠ [.char '.', .char '.']

instance (name : Text) : Decidable (Plain name) :=
  decidable_of_iff (name ≠ [] ∧ .char '/' ∉ name ∧ name ≠ [.char '.'] ∧ name ≠ [.char '.', .char '.'])
    ⟨fun ⟨filled, whole, notHere, notUp⟩ => ⟨filled, whole, notHere, notUp⟩,
      fun ⟨filled, whole, notHere, notUp⟩ => ⟨filled, whole, notHere, notUp⟩⟩

/-- The name takes a path one step further: it is neither empty nor cut by a slash, and not hidden, so that it
is none of the two that lead elsewhere. -/
structure Leads (name : Text) : Prop where
  filled : name ≠ []
  whole : .char '/' ∉ name
  visible : isHidden name = false

/-- The path that goes on from a directory through names. -/
def below (directory : Text) (names : List Text) : Text := join directory (Text.joined [.char '/'] names)

/-- The path from a base on through names, one after the other. -/
def along (base : Text) (names : List Text) : Text := names.foldl join base

variable {directory front name text : Text} {names more : List Text}

theorem Leads.plain (leads : Leads name) : Plain name where
  filled := leads.filled
  whole := leads.whole
  notHere := by
    rintro rfl
    cases leads.visible
  notUp := by
    rintro rfl
    cases leads.visible

theorem Plain.startsWith (own : Plain name) (rest : Text) : (name ++ rest).startsWith [.char '/'] = false := by
  obtain ⟨c, opening, rfl⟩ := List.exists_cons_of_ne_nil own.filled
  have other : '/' ≠ c := fun same => own.whole (same ▸ List.mem_cons_self)
  simp [Text.startsWith, List.isPrefixOf, other]

theorem Plain.exists_concat (own : Plain name) : ∃ opening c, name = opening ++ [c] ∧ c ≠ .char '/' := by
  obtain ⟨opening, c, rfl⟩ : ∃ opening c, name = opening ++ [c] :=
    ⟨_, _, (List.dropLast_concat_getLast own.filled).symm⟩
  exact ⟨opening, c, rfl, fun same => own.whole (by simp [same])⟩

theorem Plain.endsWith (own : Plain name) (front : Text) : (front ++ name).endsWith [.char '/'] = false := by
  obtain ⟨opening, c, rfl, other⟩ := own.exists_concat
  rw [Bool.eq_false_iff, Ne, Text.endsWith_iff]
  rintro ⟨rest, cut⟩
  have parted : rest ++ [.char '/'] = front ++ opening ++ [c] := by simpa using cut
  exact other (List.singleton_inj.mp (List.append_inj_right' parted rfl)).symm

theorem Plain.startsWith_self (own : Plain name) : name.startsWith [.char '/'] = false := by
  simpa using own.startsWith []

theorem startsWith_joined (all : ∀ name ∈ names, Plain name) :
    (Text.joined [.char '/'] names).startsWith [.char '/'] = false := by
  rcases names with _ | ⟨name, _ | ⟨next, more⟩⟩
  · rfl
  · exact (List.forall_mem_cons.mp all).1.startsWith_self
  · simpa [Text.joined] using (List.forall_mem_cons.mp all).1.startsWith _

theorem join_eq_append (opens : text.startsWith [.char '/'] = false) :
    join directory text = join directory [] ++ text := by
  have none : Text.startsWith [] [.char '/'] = false := rfl
  by_cases ready : (directory.isEmpty || directory.endsWith [.char '/']) = true
  · simp [join, opens, none, ready]
  · simp [join, opens, none, ready]

theorem join_nil_eq (filled : directory ≠ []) : ∃ front, join directory [] = front ++ [.char '/'] ∧
    (directory = front ∧ directory.endsWith [.char '/'] = false ∨ directory = front ++ [.char '/']) := by
  cases ends : directory.endsWith [.char '/'] with
  | false => exact ⟨directory, by simp [join, Text.startsWith, filled, ends], .inl ⟨rfl, rfl⟩⟩
  | true =>
    obtain ⟨front, rfl⟩ := Text.endsWith_iff.mp ends
    exact ⟨front, by simp [join, Text.startsWith, ends], .inr rfl⟩

theorem join_join_nil (opens : text.startsWith [.char '/'] = false) :
    join (join directory []) text = join directory text := by
  have same : join (join directory []) [] = join directory [] := by
    by_cases filled : directory = []
    · rw [filled]
      rfl
    · obtain ⟨front, whole, -⟩ := join_nil_eq filled
      rw [whole]
      simp [join, Text.startsWith, Text.endsWith]
  rw [join_eq_append opens, same, ← join_eq_append opens]

theorem join_nil_of_plain (own : Plain name) : join (join directory name) [] = join directory name ++ [.char '/'] := by
  rw [join_eq_append own.startsWith_self]
  simp [join, Text.startsWith, own.endsWith, own.filled]

theorem steps_slash (path rest : Text) : steps (path ++ .char '/' :: rest) = steps path ++ steps rest :=
  Text.pieces_append_separator path rest

theorem steps_joined (filled : names ≠ []) (all : ∀ name ∈ names, Plain name) :
    steps (Text.joined [.char '/'] names) = names :=
  Text.pieces_joined filled fun name mem => (all name mem).whole

/-- Paths below a directory are one text with a slash and the names behind it. -/
theorem below_eq_append (whole : join directory [] = front ++ [.char '/']) (all : ∀ name ∈ names, Plain name) :
    below directory names = front ++ .char '/' :: Text.joined [.char '/'] names := by
  rw [below, join_eq_append (startsWith_joined all), whole, List.append_assoc, List.singleton_append]

theorem below_ne_nil (filled : directory ≠ []) (all : ∀ name ∈ names, Plain name) :
    below directory names ≠ [] := by
  obtain ⟨front, whole, -⟩ := join_nil_eq filled
  simp [below_eq_append whole all]

theorem exists_below_concat (filled : directory ≠ []) (all : ∀ step ∈ names ++ [name], Plain step) :
    ∃ front, below directory (names ++ [name]) = front ++ .char '/' :: name := by
  obtain ⟨front, whole, -⟩ := join_nil_eq filled
  rw [below_eq_append whole all]
  by_cases first : names = []
  · subst first
    exact ⟨front, rfl⟩
  · exact ⟨front ++ .char '/' :: Text.joined [.char '/'] names, by simp [Text.joined_concat first]⟩

theorem along_append : along directory (names ++ more) = along (along directory names) more := List.foldl_append

/-- Names with slashes between them are put behind a directory at once. -/
theorem below_eq_along (some : names ≠ []) (all : ∀ name ∈ names, Plain name) :
    below directory names = along directory names := by
  induction names generalizing directory with
  | nil => exact absurd rfl some
  | cons name more ih =>
    have opens := startsWith_joined all
    obtain ⟨own, all⟩ := List.forall_mem_cons.mp all
    by_cases last : more = []
    · subst last
      rfl
    · calc below directory (name :: more)
        _ = join directory [] ++ (name ++ [.char '/'] ++ Text.joined [.char '/'] more) := by
          rw [below, join_eq_append opens, Text.joined_cons last]
        _ = join (join directory name) [] ++ Text.joined [.char '/'] more := by
          rw [join_nil_of_plain own, join_eq_append own.startsWith_self]
          simp
        _ = below (join directory name) more := (join_eq_append (startsWith_joined all)).symm
        _ = along directory (name :: more) := ih last all

theorem join_below (all : ∀ name ∈ names, Plain name) (own : Plain name) :
    join (below directory names) name = below directory (names ++ [name]) := by
  have longer : ∀ step ∈ names ++ [name], Plain step := List.forall_mem_append.mpr ⟨all, by simpa using own⟩
  by_cases first : names = []
  · subst first
    exact join_join_nil own.startsWith_self
  · rw [below_eq_along first all, below_eq_along (by simp) longer, along_append]
    rfl

theorem withoutEndSlashes_concat {c : CodePoint} (other : c ≠ '/') (front : Text) :
    withoutEndSlashes (front ++ [c]) = front ++ [c] := by
  rw [withoutEndSlashes]
  split <;> simp [other]

theorem withoutEndSlashes_slash (filled : directory ≠ []) (ends : directory.endsWith [.char '/'] = false) :
    withoutEndSlashes (directory ++ [.char '/']) = withoutEndSlashes directory := by
  obtain ⟨front, c, rfl⟩ : ∃ front c, directory = front ++ [c] :=
    ⟨_, _, (List.dropLast_concat_getLast filled).symm⟩
  have other : c ≠ '/' := by
    rintro rfl
    exact absurd (Text.endsWith_iff.mpr (List.suffix_append _ _)) (Bool.eq_false_iff.mp ends)
  have some : ¬(front ++ [c] ++ [.char '/'] : Text).all (· == '/') := by simp [other]
  rw [withoutEndSlashes_concat other, withoutEndSlashes, if_neg some]
  simp [other]

end Path

namespace FileTree

variable {tree : FileTree} {path : Text} {names : List Text} {location last : Location}

theorem ne_nil_of_locate? (leads : tree.locate? path = some location) : path ≠ [] := by
  rintro rfl
  simp [locate?] at leads

theorem after_of_plain {name : Text} (own : Path.Plain name) : after location name = location ++ [name] := by
  simp [after, own.filled, own.notHere, own.notUp]

theorem at?_append (location names : Location) :
    tree.at? (location ++ names) = (tree.at? location).bind (FileNode.at? names) := by
  rw [at?, at?]
  generalize tree.root = node
  induction location generalizing node with
  | nil => rfl
  | cons name more ih =>
    rw [List.cons_append, FileNode.at?, FileNode.at?, Option.bind_assoc]
    exact congrArg _ (funext ih)

theorem isDirectory_of_below {name : Text} {more : Location}
    (found : (tree.at? (location ++ name :: more)).isSome) : (tree.at? location).any FileNode.isDirectory := by
  rw [at?_append] at found
  cases own : tree.at? location with
  | none => simp [own] at found
  | some node =>
    cases node with
    | directory entries => rfl
    | file => simp [own, FileNode.at?, FileNode.child?, FileNode.entries] at found

/-- Names lead on to the location below that they name, if anything is there. -/
theorem foldlM_step? (all : ∀ name ∈ names, Path.Plain name) (directory : (tree.at? location).isSome) :
    names.foldlM tree.step? location = some last ↔ last = location ++ names ∧ (tree.at? last).isSome := by
  induction names generalizing location with
  | nil =>
    simp only [List.foldlM_nil, List.append_nil]
    constructor
    · rintro ⟨⟩
      exact ⟨rfl, directory⟩
    · rintro ⟨rfl, -⟩
      rfl
  | cons name more ih =>
    obtain ⟨own, all⟩ := List.forall_mem_cons.mp all
    rw [List.foldlM_cons, step?, after_of_plain own]
    have whole : location ++ name :: more = location ++ [name] ++ more := by simp
    by_cases found : (tree.at? (location ++ [name])).isSome
    · have entered := isDirectory_of_below found
      rw [if_pos (by simp [entered, found]), whole]
      exact ih all found
    · rw [if_neg (by simp [found]), whole]
      constructor
      · rintro ⟨⟩
      · rintro ⟨rfl, further⟩
        rw [at?_append] at further
        exact absurd (Option.isSome_of_isSome_bind further) found

theorem step?_nil (location : Location) : tree.step? location [] =
    if (tree.at? location).any FileNode.isDirectory then some location else none := by
  simp only [step?, after, true_or, if_true]
  cases tree.at? location <;> simp

theorem start_append (filled : path ≠ []) (rest : Text) : tree.start (path ++ rest) = tree.start path := by
  obtain ⟨c, more, rfl⟩ := List.exists_cons_of_ne_nil filled
  simp [start, Text.startsWith, List.isPrefixOf]

/-- Where steps with a slash at the end lead, they do so without it, and only to a directory. -/
theorem foldlM_steps_slash {origin : Location}
    (leads : (Path.steps (path ++ [.char '/'])).foldlM tree.step? origin = some location) :
    (Path.steps path).foldlM tree.step? origin = some location ∧ (tree.at? location).any FileNode.isDirectory := by
  rw [Path.steps_slash, List.foldlM_append] at leads
  obtain ⟨place, reached, stays⟩ := Option.bind_eq_some_iff.mp leads
  simp only [Path.steps, Text.pieces, List.foldlM_cons, step?_nil, List.foldlM_nil] at stays
  split at stays
  case isTrue here =>
    obtain rfl := Option.some.inj stays
    exact ⟨reached, here⟩
  case isFalse => cases stays

/-- A path that leads to a directory does so without the slashes at its end. -/
theorem locate?_withoutEndSlashes (leads : tree.locate? path = some location) :
    tree.locate? (Path.withoutEndSlashes path) = some location := by
  induction path using List.reverseRecOn with
  | nil => exact leads
  | append_singleton path c ih =>
    rw [Path.withoutEndSlashes]
    split
    case isTrue => exact leads
    case isFalse other =>
      by_cases slash : c = '/'
      · subst slash
        have kept : ¬path.all (· == '/') := by simpa using other
        have filled : path ≠ [] := by
          rintro rfl
          exact kept rfl
        rw [locate?, if_neg (by simp), start_append filled] at leads
        have shorter : tree.locate? path = some location := by
          rw [locate?, if_neg filled]
          exact (foldlM_steps_slash leads).1
        have cut := ih shorter
        rw [Path.withoutEndSlashes, if_neg kept] at cut
        simpa using cut
      · simpa [slash] using leads

theorem foldlM_steps_joined (here : (tree.at? location).any FileNode.isDirectory = true)
    (all : ∀ name ∈ names, Path.Plain name) :
    (Path.steps (Text.joined [.char '/'] names)).foldlM tree.step? location = names.foldlM tree.step? location := by
  by_cases filled : names = []
  · subst filled
    simp [Text.joined, Path.steps, Text.pieces, step?_nil, here]
  · rw [Path.steps_joined filled all]

theorem locate?_below (leads : tree.locate? path = some location)
    (here : (tree.at? location).any FileNode.isDirectory = true) (all : ∀ name ∈ names, Path.Plain name) :
    tree.locate? (Path.below path names) = some last ↔ last = location ++ names ∧ (tree.at? last).isSome := by
  have nonempty := ne_nil_of_locate? leads
  rw [locate?, if_neg nonempty] at leads
  rw [← foldlM_step? all (Option.isSome_of_any here), ← foldlM_steps_joined here all]
  obtain ⟨front, slash, ⟨rfl, -⟩ | rfl⟩ := Path.join_nil_eq nonempty
  · rw [Path.below_eq_append slash all, locate?, if_neg (by simp), Path.steps_slash, start_append nonempty,
      List.foldlM_append, leads]
    rfl
  · have start :
        tree.start (front ++ .char '/' :: Text.joined [.char '/'] names) = tree.start (front ++ [.char '/']) := by
      rw [← List.singleton_append, ← List.append_assoc, start_append nonempty]
    rw [Path.below_eq_append slash all, locate?, if_neg (by simp), start, Path.steps_slash, List.foldlM_append,
      (foldlM_steps_slash leads).1]
    rfl

theorem node?_below (leads : tree.locate? path = some location)
    (here : (tree.at? location).any FileNode.isDirectory = true) (all : ∀ name ∈ names, Path.Plain name) :
    tree.node? (Path.below path names) = tree.at? (location ++ names) := by
  rw [node?]
  cases found : tree.locate? (Path.below path names) with
  | some last =>
    obtain ⟨rfl, -⟩ := (locate?_below leads here all).mp found
    rfl
  | none =>
    cases isThere : tree.at? (location ++ names) with
    | none => rfl
    | some node =>
      have reached := (locate?_below leads here all).mpr ⟨rfl, Option.isSome_of_eq_some isThere⟩
      rw [found] at reached
      cases reached

end FileTree

end ClassMigration
