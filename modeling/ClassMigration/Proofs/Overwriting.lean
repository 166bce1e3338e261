import ClassMigration.FileTree

/-! Files that get other bytes. Overwriting a file makes no node and takes none away, so every path leads where
it led before, and all other files keep their bytes. Overwriting two files may be done in either order. -/
namespace ClassMigration

namespace FileNode

variable {name other : Text} {entries : List (Text × FileNode)} {node : FileNode} {bytes bytes' : Bytes}
  {place place' : Location}

theorem find?_changeEntry (change : FileNode → FileNode) :
    ((changeEntry name change entries).find? (·.1 == other)).map Prod.snd =
      if other = name then ((entries.find? (·.1 == other)).map Prod.snd).map change
      else (entries.find? (·.1 == other)).map Prod.snd := by
  induction entries with
  | nil => simp [changeEntry]
  | cons entry more ih =>
    obtain ⟨own, node⟩ := entry
    by_cases isName : own = name
    · subst isName
      by_cases isOther : own = other
      · simp [changeEntry, isOther]
      · simp [changeEntry, isOther, Ne.symm isOther]
    · by_cases isOther : own = other
      · subst isOther
        simp [changeEntry, isName]
      · simpa [changeEntry, isName, isOther] using ih

theorem changeEntry_changeEntry (first second : FileNode → FileNode) :
    changeEntry name second (changeEntry name first entries) =
      changeEntry name (fun node => second (first node)) entries := by
  induction entries with
  | nil => rfl
  | cons entry more ih =>
    obtain ⟨own, node⟩ := entry
    by_cases isName : own = name <;> simp [changeEntry, isName, ih]

theorem changeEntry_comm (apart : name ≠ other) (change change' : FileNode → FileNode) :
    changeEntry other change' (changeEntry name change entries) =
      changeEntry name change (changeEntry other change' entries) := by
  induction entries with
  | nil => rfl
  | cons entry more ih =>
    obtain ⟨own, node⟩ := entry
    by_cases isName : own = name
    · subst isName
      simp [changeEntry, apart]
    · by_cases isOther : own = other
      · subst isOther
        simp [changeEntry, isName]
      · simp [changeEntry, isName, isOther, ih]

@[simp] theorem isDirectory_overwrite (bytes : Bytes) (place : Location) (node : FileNode) :
    (node.overwrite bytes place).isDirectory = node.isDirectory := by
  cases node <;> cases place <;> rfl

@[simp] theorem isLocked_overwrite (bytes : Bytes) (place : Location) (node : FileNode) :
    (node.overwrite bytes place).isLocked = node.isLocked := by
  cases node <;> cases place <;> rfl

theorem bytes?_overwrite (bytes : Bytes) (place : Location) (node : FileNode) :
    (node.overwrite bytes place).bytes? =
      if place = [] then node.bytes?.map fun _ => bytes else node.bytes? := by
  cases node <;> cases place <;> rfl

theorem child?_overwrite (bytes : Bytes) (first : Text) (more : Location) (node : FileNode) (name : Text) :
    (node.overwrite bytes (first :: more)).child? name =
      if name = first then (node.child? name).map (overwrite bytes more) else node.child? name := by
  cases node with
  | file old locked => simp [overwrite, child?, entries]
  | directory entries => exact find?_changeEntry _

/-- On the way to the overwritten place the nodes change within; all others stay. -/
theorem at?_overwrite (bytes : Bytes) (place location : Location) (node : FileNode) :
    (node.overwrite bytes place).at? location =
      (node.at? location).map fun inner =>
        if location <+: place then inner.overwrite bytes (place.drop location.length) else inner := by
  induction location generalizing place node with
  | nil => simp [at?]
  | cons name more ih =>
    cases place with
    | nil => cases node <;> simp [overwrite, at?, child?, entries]
    | cons first rest =>
      rw [at?, at?, child?_overwrite]
      by_cases same : name = first
      · subst same
        cases node.child? name <;> simp [ih]
      · simp [same]

theorem overwrite_comm (apart : place ≠ place') :
    (node.overwrite bytes place).overwrite bytes' place' =
      (node.overwrite bytes' place').overwrite bytes place := by
  induction place generalizing place' node with
  | nil =>
    obtain ⟨name, more, rfl⟩ := List.exists_cons_of_ne_nil apart.symm
    cases node <;> rfl
  | cons name more ih =>
    cases place' with
    | nil => cases node <;> rfl
    | cons name' more' =>
      cases node with
      | file old locked => rfl
      | directory entries =>
        simp only [overwrite, directory.injEq]
        by_cases same : name = name'
        · subst same
          have inside : more ≠ more' := fun same => apart (same ▸ rfl)
          rw [changeEntry_changeEntry, changeEntry_changeEntry]
          exact congrArg (changeEntry name · entries) (funext fun node => ih inside)
        · exact changeEntry_comm same _ _

end FileNode

namespace FileTree

def isDirectoryAt? (tree : FileTree) (location : Location) : Option Bool :=
  (tree.at? location).map FileNode.isDirectory

/-- The bytes of the file at a location. -/
def bytesAt? (tree : FileTree) (location : Location) : Option Bytes :=
  (tree.at? location).bind FileNode.bytes?

def isLockedAt? (tree : FileTree) (location : Location) : Option Bool :=
  (tree.at? location).map FileNode.isLocked

/-- Both trees have directories at the same locations and files at the same locations, and the same of these
are locked. -/
structure SameNodes (a b : FileTree) : Prop where
  current : a.current = b.current
  nodes : ∀ location, a.isDirectoryAt? location = b.isDirectoryAt? location
  locks : ∀ location, a.isLockedAt? location = b.isLockedAt? location

namespace SameNodes

variable {a b c : FileTree}

theorem refl (tree : FileTree) : SameNodes tree tree := ⟨rfl, fun _ => rfl, fun _ => rfl⟩

theorem trans (first : SameNodes a b) (second : SameNodes b c) : SameNodes a c :=
  ⟨first.current.trans second.current, fun location => (first.nodes location).trans (second.nodes location),
    fun location => (first.locks location).trans (second.locks location)⟩

theorem step? (same : SameNodes a b) : a.step? = b.step? := by
  funext location step
  have directory : (a.at? location).any FileNode.isDirectory = (b.at? location).any FileNode.isDirectory := by
    have := same.nodes location
    simp only [isDirectoryAt?] at this
    cases first : a.at? location <;> cases second : b.at? location <;> simp_all
  have reached : (a.at? (after location step)).isSome = (b.at? (after location step)).isSome := by
    have := congrArg Option.isSome (same.nodes (after location step))
    simpa [isDirectoryAt?] using this
  rw [FileTree.step?, FileTree.step?, directory, reached]

theorem locate? (same : SameNodes a b) (path : Text) : a.locate? path = b.locate? path := by
  rw [FileTree.locate?, FileTree.locate?, start, start, same.step?, same.current]

theorem isLocked (same : SameNodes a b) (path : Text) : a.isLocked path = b.isLocked path := by
  rw [FileTree.isLocked, FileTree.isLocked, node?, node?, same.locate?]
  cases b.locate? path with
  | none => rfl
  | some location =>
    have := same.locks location
    simp only [isLockedAt?] at this
    cases first : a.at? location <;> cases second : b.at? location <;> simp_all

end SameNodes

variable {tree : FileTree} {path path' : Text} {bytes bytes' : Bytes} {location : Location}

theorem read?_eq (tree : FileTree) (path : Text) : tree.read? path = (tree.locate? path).bind tree.bytesAt? := by
  rw [read?, node?, Option.bind_assoc]
  rfl

theorem sameNodes_overwrite (tree : FileTree) (path : Text) (bytes : Bytes) :
    SameNodes tree (tree.overwrite path bytes) := by
  rw [overwrite]
  split
  case h_1 place found =>
    refine ⟨rfl, fun location => ?_, fun location => ?_⟩
    all_goals
      simp only [isDirectoryAt?, isLockedAt?, at?, FileNode.at?_overwrite, Option.map_map]
      congr 1
      funext inner
      simp only [Function.comp_apply]
      split <;> simp
  case h_2 => exact .refl tree

theorem bytesAt?_overwrite (tree : FileTree) (path : Text) (bytes : Bytes) (location : Location) :
    (tree.overwrite path bytes).bytesAt? location =
      if tree.locate? path = some location then (tree.bytesAt? location).map fun _ => bytes
      else tree.bytesAt? location := by
  rw [overwrite]
  cases found : tree.locate? path with
  | none => simp
  | some place =>
    simp only [bytesAt?, at?, FileNode.at?_overwrite, Option.some.injEq]
    cases tree.root.at? location with
    | none => simp
    | some inner =>
      by_cases here : place = location
      · subst here
        simp [FileNode.bytes?_overwrite]
      · simp only [here, if_false, Option.map_some, Option.bind_some]
        split
        case isTrue leads =>
          have further : place.drop location.length ≠ [] := by
            intro ended
            obtain ⟨rest, rfl⟩ := leads
            simp_all
          rw [FileNode.bytes?_overwrite, if_neg further]
        case isFalse => rfl

/-- The two paths do not lead to one place. -/
def Elsewhere (tree : FileTree) (path path' : Text) : Prop :=
  tree.locate? path = none ∨ tree.locate? path ≠ tree.locate? path'

instance : Decidable (tree.Elsewhere path path') := inferInstanceAs (Decidable (_ ∨ _))

theorem Elsewhere.ne (apart : tree.Elsewhere path path') (leads : tree.locate? path = some location) :
    tree.locate? path' ≠ some location := by
  rcases apart with nowhere | distinct
  · rw [nowhere] at leads
    cases leads
  · exact fun same => distinct (leads.trans same.symm)

theorem Elsewhere.symm (apart : tree.Elsewhere path path') : tree.Elsewhere path' path := by
  cases leads : tree.locate? path' with
  | none => exact .inl leads
  | some location => exact .inr fun same => apart.ne (same.symm.trans leads) leads

theorem SameNodes.elsewhere {a b : FileTree} (same : SameNodes a b) (apart : a.Elsewhere path path') :
    b.Elsewhere path path' := by
  rw [Elsewhere, same.locate?, same.locate?] at apart
  exact apart

theorem read?_overwrite (apart : tree.Elsewhere path path') :
    (tree.overwrite path bytes).read? path' = tree.read? path' := by
  rw [read?_eq, read?_eq, ← (sameNodes_overwrite tree path bytes).locate?]
  cases leads : tree.locate? path' with
  | none => rfl
  | some location => exact (bytesAt?_overwrite tree path bytes location).trans (if_neg (apart.symm.ne leads))

theorem read?_overwrite_self {old : Bytes} (read : tree.read? path = some old) :
    (tree.overwrite path bytes).read? path = some bytes := by
  rw [read?_eq] at read
  obtain ⟨location, leads, held⟩ := Option.bind_eq_some_iff.mp read
  rw [read?_eq, ← (sameNodes_overwrite tree path bytes).locate?, leads, Option.bind_some,
    bytesAt?_overwrite, if_pos leads, held]
  rfl

theorem overwrite_comm (apart : tree.Elsewhere path path') :
    (tree.overwrite path bytes).overwrite path' bytes' =
      (tree.overwrite path' bytes').overwrite path bytes := by
  have first := (sameNodes_overwrite tree path bytes).locate? path'
  have second := (sameNodes_overwrite tree path' bytes').locate? path
  rw [overwrite.eq_def (tree.overwrite path bytes), overwrite.eq_def (tree.overwrite path' bytes'),
    ← first, ← second]
  cases found : tree.locate? path with
  | none => simp [overwrite, found]
  | some place =>
    cases found' : tree.locate? path' with
    | none => simp [overwrite, found, found']
    | some place' =>
      have distinct : place ≠ place' := fun same => apart.ne found (same ▸ found')
      simp only [overwrite, found, found', FileNode.overwrite_comm distinct]

/-- Gives a file other bytes, if there are any for it. -/
def store (tree : FileTree) (path : Text) : Option Bytes → FileTree
  | some bytes => tree.overwrite path bytes
  | none => tree

variable {bytes? bytes?' : Option Bytes}

theorem sameNodes_store : SameNodes tree (tree.store path bytes?) := by
  cases bytes? with
  | none => exact .refl tree
  | some bytes => exact sameNodes_overwrite tree path bytes

theorem read?_store (apart : tree.Elsewhere path path') :
    (tree.store path bytes?).read? path' = tree.read? path' := by
  cases bytes? with
  | none => rfl
  | some bytes => exact read?_overwrite apart

theorem store_comm (apart : tree.Elsewhere path path') :
    (tree.store path bytes?).store path' bytes?' = (tree.store path' bytes?').store path bytes? := by
  cases bytes? with
  | none => rfl
  | some bytes =>
    cases bytes?' with
    | none => rfl
    | some bytes' => exact overwrite_comm apart

end FileTree

end ClassMigration
