import ClassMigration.Migration
import ClassMigration.Proofs.Stylesheet.Names
import ClassMigration.Proofs.TableBuilding

/-! Tables whose classes are made from one stem and from keys. Their old and new names are plain, and where
the table has no problem, no new name is deprecated. -/
namespace ClassMigration

namespace Text

variable {separator : CodePoint} {w : Text}

theorem pieces_of_notMem (free : separator ∉ w) : pieces separator w = [w] := by
  induction w with
  | nil => rfl
  | cons c w ih =>
    simp only [List.mem_cons, not_or] at free
    rw [pieces, if_neg (Ne.symm free.1), ih free.2]

theorem pieces_append (free : separator ∉ w) (rest : Text) :
    pieces separator (w ++ separator :: rest) = w :: pieces separator rest := by
  induction w with
  | nil => simp [pieces]
  | cons c w ih =>
    simp only [List.mem_cons, not_or] at free
    rw [List.cons_append, pieces, if_neg (Ne.symm free.1), ih free.2]

end Text

namespace Deprecation

open Stylesheet (Plain)

theorem pieces_dotted {names : List Text} (free : ∀ n ∈ names, .char '.' ∉ n) :
    Text.pieces '.' (names.flatMap ('.' :: ·)) = [] :: names := by
  have behind : ∀ n : Text, .char '.' ∉ n →
      Text.pieces (.char '.') (n ++ names.flatMap (.char '.' :: ·)) = n :: names := by
    induction names with
    | nil =>
      intro n own
      simpa using Text.pieces_of_notMem own
    | cons m names ih =>
      intro n own
      have rest := ih (fun k mem => free k (List.mem_cons_of_mem m mem)) m (free m List.mem_cons_self)
      rw [List.flatMap_cons, List.cons_append, Text.pieces_append own, rest]
  exact behind [] (by simp)

/-- What a key, and the stem after its first letter, is made of. -/
def isKeyChar (c : CodePoint) : Prop := c.isAlphanum ∨ c = '-' ∨ c = '_'

instance : DecidablePred isKeyChar := fun _ => inferInstanceAs (Decidable (_ ∨ _ ∨ _))

/-- The check goes through the text; the general one over a finite type would go through all characters. -/
theorem isKeyChar_of_all {text : Text} (checked : text.all (isKeyChar ·) = true) : ∀ c ∈ text, isKeyChar c :=
  fun c mem => of_decide_eq_true (List.all_eq_true.mp checked c mem)

def className (stem key : Text) : Text := stem ++ .char '-' :: key

theorem token_eq (stem key : Text) : token stem key = .char '.' :: className stem key := rfl

theorem newToken_ofKeys (stem oldKey : Text) (newKeys : List Text) :
    (ofKeys stem oldKey newKeys).newToken = (newKeys.map (className stem)).flatMap (.char '.' :: ·) := by
  rw [List.flatMap_map]
  rfl

theorem newNames_ofKeys {stem : Text} {newKeys : List Text} (free : ∀ key ∈ newKeys, .char '.' ∉ className stem key)
    (oldKey : Text) : (ofKeys stem oldKey newKeys).newNames = newKeys.map (className stem) := by
  rw [newNames, newToken_ofKeys, pieces_dotted (by simpa using free), List.filter_cons_of_neg (by simp),
    List.filter_eq_self]
  intro name mem
  obtain ⟨key, -, rfl⟩ := List.mem_map.mp mem
  simp [className]

/-- Every entry is made from keys under the stem, and has a replacement. -/
structure Table.FromKeys (table : Table) (stem : Text) : Prop where
  letter : ∃ c rest, stem = c :: rest ∧ c.isAlpha
  stemChars : ∀ c ∈ stem, isKeyChar c
  made : ∀ entry ∈ table.entries, ∃ oldKey newKeys, entry = .ofKeys stem oldKey newKeys ∧
    newKeys ≠ [] ∧ ∀ key ∈ oldKey :: newKeys, ∀ c ∈ key, isKeyChar c

namespace Table.FromKeys

variable {table : Table} {stem : Text} (keyed : table.FromKeys stem)
include keyed

theorem plain {key : Text} (chars : ∀ c ∈ key, isKeyChar c) : Plain (className stem key) where
  begins := by
    obtain ⟨c, rest, same, letter⟩ := keyed.letter
    cases rest with
    | nil => exact ⟨c, '-', key, by rw [className, same]; rfl, letter⟩
    | cons d rest => exact ⟨c, d, rest ++ .char '-' :: key, by rw [className, same]; rfl, letter⟩
  chars := by
    intro c mem
    rcases List.mem_append.mp mem with front | back
    · exact keyed.stemChars c front
    · rcases List.mem_cons.mp back with rfl | own
      · exact .inr (.inl rfl)
      · exact chars c own

theorem head (key : Text) : (className stem key).head? = stem.head? := by
  obtain ⟨c, rest, same, -⟩ := keyed.letter
  rw [className, same]
  rfl

variable {entry : Deprecation} (mem : entry ∈ table.entries)
include mem

theorem plain_oldName : Plain entry.oldName := by
  obtain ⟨oldKey, newKeys, rfl, -, chars⟩ := keyed.made entry mem
  exact keyed.plain (chars oldKey List.mem_cons_self)

theorem oldToken_eq : entry.oldToken = .char '.' :: entry.oldName := by
  obtain ⟨oldKey, newKeys, rfl, -, -⟩ := keyed.made entry mem
  rfl

theorem newNames_eq : ∃ newKeys : List Text, newKeys ≠ [] ∧ (∀ key ∈ newKeys, ∀ c ∈ key, isKeyChar c) ∧
    entry.newNames = newKeys.map (className stem) ∧ entry.newToken = entry.newNames.flatMap (.char '.' :: ·) := by
  obtain ⟨oldKey, newKeys, rfl, some, chars⟩ := keyed.made entry mem
  have names : (ofKeys stem oldKey newKeys).newNames = newKeys.map (className stem) :=
    newNames_ofKeys (fun key own => (keyed.plain (chars key (List.mem_cons_of_mem _ own))).no_dot) oldKey
  refine ⟨newKeys, some, fun key own => chars key (List.mem_cons_of_mem _ own), names, ?_⟩
  rw [names, newToken_ofKeys]

theorem newNames_ne_nil : entry.newNames ≠ [] := by
  obtain ⟨newKeys, some, -, names, -⟩ := keyed.newNames_eq mem
  rw [names]
  simpa using some

theorem plain_newNames : ∀ n ∈ entry.newNames, Plain n ∧ n.head? = entry.oldName.head? := by
  obtain ⟨newKeys, -, chars, names, -⟩ := keyed.newNames_eq mem
  have old : entry.oldName.head? = stem.head? := by
    obtain ⟨oldKey, newKeys, rfl, -, -⟩ := keyed.made entry mem
    exact keyed.head oldKey
  intro n isNew
  rw [names] at isNew
  obtain ⟨key, own, rfl⟩ := List.mem_map.mp isNew
  exact ⟨keyed.plain (chars key own), (keyed.head key).trans old.symm⟩

end Table.FromKeys

namespace Table

variable {table : Table} {entry : Deprecation} {name : Text}

theorem withName?_newName (sound : table.problems = []) (mem : entry ∈ table.entries)
    (isNew : name ∈ entry.newNames) : table.withName? name = none := by
  have own : table.problemsOf entry = [] := List.flatMap_eq_nil_iff.mp sound entry mem
  simp only [problemsOf, List.append_eq_nil_iff, List.map_eq_nil_iff, List.filter_eq_nil_iff] at own
  simpa using own.2 name isNew

end Table

end Deprecation

namespace Migration

theorem alert_fromKeys : alert.table.FromKeys "MuiAlert".codePoints where
  letter := ⟨'M', _, rfl, by decide⟩
  stemChars := Deprecation.isKeyChar_of_all (by decide)
  made := by
    intro entry mem
    obtain ⟨variant, isVariant, mem⟩ := List.mem_flatMap.mp mem
    obtain ⟨color, isColor, rfl⟩ := List.mem_map.mp mem
    have checked : (alertVariants ++ alertColors).all (fun key => key.all (Deprecation.isKeyChar ·)) = true := by
      decide
    have keys (key : Text) (isKey : key ∈ alertVariants ++ alertColors) : ∀ c ∈ key, Deprecation.isKeyChar c :=
      Deprecation.isKeyChar_of_all (List.all_eq_true.mp checked key isKey)
    have variants := keys variant (List.mem_append_left _ isVariant)
    have colors := keys color (List.mem_append_right _ isColor)
    have prefixed : ∀ c ∈ "color".codePoints, Deprecation.isKeyChar c :=
      Deprecation.isKeyChar_of_all (by decide)
    refine ⟨_, _, rfl, by simp, ?_⟩
    intro key isKey c inside
    simp only [List.mem_cons, List.not_mem_nil, or_false] at isKey
    rcases isKey with rfl | rfl | rfl
    · rcases List.mem_append.mp inside with front | back
      · exact variants c front
      · exact colors c back
    · exact variants c inside
    · rcases List.mem_append.mp inside with front | back
      · exact prefixed c front
      · exact colors c back

end Migration

end ClassMigration
