import ClassMigration.Script.Outline

/-! The nodes of a script in the order of a recursive traversal. A walk comes to them in this order, whatever
waits beside them. -/
namespace ClassMigration.Script.Node

def fields : Node → List Node
  | member object property _ _ => [object, property]
  | template _ slots => slots
  | list items => items
  | branch _ parts => parts
  | _ => []

mutual

/-- The nodes of a tree at a place, each with its own place, outer before inner and in the order of the
parts. -/
def preorder (place : Place) : Node → List (Node × Place)
  | name id => [(name id, place)]
  | string value written span => [(string value written span, place)]
  | member object property computed span =>
    (member object property computed span, place) ::
      (preorder .inMember object ++ preorder .inMember property)
  | template chunks slots =>
    (template chunks slots, place) :: slotsPreorder (chunks.map Chunk.raw) 0 slots
  | list items => (list items, place) :: partsPreorder place items
  | branch kind parts => (branch kind parts, place) :: partsPreorder (.inside kind.name) parts

def slotsPreorder (chunks : List Text) (index : Nat) : List Node → List (Node × Place)
  | [] => []
  | slot :: more => preorder (.slot chunks index) slot ++ slotsPreorder chunks (index + 1) more

def partsPreorder (place : Place) : List Node → List (Node × Place)
  | [] => []
  | node :: more => preorder place node ++ partsPreorder place more

end

theorem partsPreorder_eq_flatMap (place : Place) (items : List Node) :
    partsPreorder place items = items.flatMap (preorder place) := by
  induction items with
  | nil => rfl
  | cons node more ih => rw [partsPreorder, List.flatMap_cons, ih]

theorem slotsPreorder_eq_flatMap (chunks : List Text) (index : Nat) (slots : List Node) :
    slotsPreorder chunks index slots =
      (slots.zipIdx index).flatMap fun (slot, i) => preorder (.slot chunks i) slot := by
  induction slots generalizing index with
  | nil => rfl
  | cons slot more ih => rw [slotsPreorder, List.zipIdx_cons, List.flatMap_cons, ih]

def preorders (waiting : List (Node × Place)) : List (Node × Place) :=
  waiting.flatMap fun part => part.1.preorder part.2

/-- A node comes first, and then its parts as they would wait. -/
theorem preorder_eq (place : Place) (node : Node) :
    node.preorder place = (node, place) :: preorders (node.parts place) := by
  cases node with
  | name => rfl
  | string => rfl
  | member => simp [preorder, preorders, parts]
  | template => simp [preorder, preorders, parts, slotsPreorder_eq_flatMap, List.flatMap_map]
  | list => simp [preorder, preorders, parts, partsPreorder_eq_flatMap, List.flatMap_map]
  | branch => simp [preorder, preorders, parts, partsPreorder_eq_flatMap, List.flatMap_map]

theorem preorders_cons (node : Node) (place : Place) (waiting : List (Node × Place)) :
    preorders ((node, place) :: waiting) = (node, place) :: preorders (node.parts place ++ waiting) := by
  rw [preorders, List.flatMap_cons, preorder_eq, List.cons_append, preorders, preorders,
    List.flatMap_append]

theorem sizes_append (front back : List Node) : sizes (front ++ back) = sizes front + sizes back := by
  induction front with
  | nil => simp [sizes]
  | cons node more ih => simp [sizes, ih, Nat.add_assoc]

theorem sizes_parts (place : Place) (node : Node) :
    sizes ((node.parts place).map Prod.fst) + 1 = node.size := by
  cases node with
  | template chunks slots => simp [parts, size, Function.comp_def]
  | _ => simp [parts, size, sizes, Function.comp_def]

theorem preorders_singleton (node : Node) (place : Place) : preorders [(node, place)] = node.preorder place :=
  List.append_nil _

/-- The nodes that wait are walked as the traversal lists them. Every turn takes one node off their size. -/
theorem walk_eq_preorders (fuel : Nat) (waiting : List (Node × Place))
    (enough : sizes (waiting.map Prod.fst) ≤ fuel) :
    walk fuel waiting = (preorders waiting).filterMap fun part => part.1.site? part.2 := by
  induction fuel generalizing waiting with
  | zero =>
    cases waiting with
    | nil => rfl
    | cons first more =>
      have own := sizes_parts first.2 first.1
      rw [List.map_cons, sizes] at enough
      omega
  | succ fuel ih =>
    cases waiting with
    | nil => rfl
    | cons first more =>
      have less : sizes ((first.1.parts first.2 ++ more).map Prod.fst) ≤ fuel := by
        have own := sizes_parts first.2 first.1
        rw [List.map_cons, sizes] at enough
        rw [List.map_append, sizes_append]
        omega
      rw [walk, ih _ less, preorders_cons, List.filterMap_cons]
      cases first.1.site? first.2 <;> rfl

theorem sites_eq (place : Place) (node : Node) :
    node.sites place = (node.preorder place).filterMap fun part => part.1.site? part.2 := by
  rw [sites, walk_eq_preorders _ _ (Nat.le_refl node.size), preorders_singleton]

theorem size_lt_of_mem_fields {node part : Node} (mem : part ∈ node.fields) : part.size < node.size := by
  have le : ∀ {parts : List Node}, part ∈ parts → part.size ≤ sizes parts := by
    intro parts mem
    obtain ⟨front, back, rfl⟩ := List.append_of_mem mem
    rw [sizes_append, sizes]
    omega
  cases node with
  | name => cases mem
  | string => cases mem
  | member object property computed span =>
    have own : part.size ≤ sizes [object, property] := le mem
    simp only [sizes, size] at own ⊢
    omega
  | template chunks slots => exact Nat.lt_succ_of_le (le mem)
  | list items => exact Nat.lt_succ_of_le (le mem)
  | branch kind parts => exact Nat.lt_succ_of_le (le mem)

/-- What every node has if its parts have it, all nodes have. -/
theorem fields_induction {motive : Node → Prop}
    (step : ∀ node, (∀ part ∈ node.fields, motive part) → motive node) (node : Node) : motive node := by
  induction size : node.size using Nat.strongRecOn generalizing node with
  | ind _ ih =>
    subst size
    exact step node fun part mem => ih part.size (size_lt_of_mem_fields mem) part rfl

theorem parts_fst (place : Place) (node : Node) : (node.parts place).map Prod.fst = node.fields := by
  cases node with
  | template chunks slots => simp [parts, fields, Function.comp_def]
  | _ => simp [parts, fields, Function.comp_def]

/-- What every node at a place has if its parts have it at theirs, all nodes have at all places. -/
theorem parts_induction {motive : Node → Place → Prop}
    (step : ∀ node place, (∀ part ∈ node.parts place, motive part.1 part.2) → motive node place)
    (node : Node) (place : Place) : motive node place := by
  induction node using fields_induction generalizing place with
  | step node ih =>
    apply step
    intro part mem
    apply ih
    rw [← parts_fst place]
    exact List.mem_map_of_mem mem

theorem length_preorders {waiting : List (Node × Place)}
    (each : ∀ part ∈ waiting, (part.1.preorder part.2).length = part.1.size) :
    (preorders waiting).length = sizes (waiting.map Prod.fst) := by
  induction waiting with
  | nil => rfl
  | cons first more ih =>
    obtain ⟨own, each⟩ := List.forall_mem_cons.mp each
    have rest := ih each
    rw [preorders] at rest ⊢
    rw [List.flatMap_cons, List.length_append, own, rest, List.map_cons, sizes]

theorem length_preorder (place : Place) (node : Node) : (node.preorder place).length = node.size := by
  induction node, place using parts_induction with
  | step node place ih => rw [preorder_eq, List.length_cons, length_preorders ih, sizes_parts]

end ClassMigration.Script.Node
