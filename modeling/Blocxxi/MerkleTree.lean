import Mathlib.Data.Nat.Log
import Mathlib.Data.Set.Function

/-!
# Merkle trees with repeated nodes

A layer of a Merkle tree is made from the one below by combining its nodes in
pairs; a last node without a neighbour is paired with itself.  The nodes that
are used in this way are those of a completed layer, whose length is a power of
two.  Where combining does not collide, a root therefore determines the
completed leaves, for each height of the tree, but not their number: a list
that already repeats its last nodes completes to the same leaves.
-/

namespace MerkleTree

universe u v

variable {Node : Type u} {Other : Type v}

/-- The pairs of a layer; a last node without a neighbour is paired with
itself. -/
def paired : List Node → List (Node × Node)
  | first :: second :: rest => (first, second) :: paired rest
  | [last] => [(last, last)]
  | [] => []

/-- The layer above. -/
def above (combine : Node → Node → Node) (layer : List Node) : List Node :=
  (paired layer).map fun pair => combine pair.1 pair.2

/-- The number of layers above the leaves. -/
def height (leaves : List Node) : Nat :=
  Nat.clog 2 leaves.length

def root (combine : Node → Node → Node) (leaves : List Node) : Option Node :=
  ((above combine)^[height leaves] leaves).head?

theorem paired_length (layer : List Node) :
    (paired layer).length = (layer.length + 1) / 2 := by
  fun_induction paired layer with
  | case1 first second rest induction =>
      simp only [List.length_cons, induction]
      omega
  | case2 last => simp
  | case3 => simp

theorem above_length (combine : Node → Node → Node) (layer : List Node) :
    (above combine layer).length = (layer.length + 1) / 2 := by
  rw [above, List.length_map, paired_length]

/-- A layer with more than one node is one step higher than the layer above. -/
theorem height_above (combine : Node → Node → Node) {layer : List Node}
    (several : 2 ≤ layer.length) :
    height layer = height (above combine layer) + 1 := by
  unfold height
  rw [above_length, Nat.clog_of_two_le (by decide) several]
  rfl

theorem height_single {layer : List Node} (single : layer.length ≤ 1) :
    height layer = 0 :=
  Nat.clog_of_right_le_one single 2

/-- There is one node at the top. -/
theorem top_length (combine : Node → Node → Node) {leaves : List Node}
    (nonempty : leaves ≠ []) :
    ((above combine)^[height leaves] leaves).length = 1 := by
  have positive : 0 < leaves.length := List.length_pos_iff.mpr nonempty
  generalize isHeight : height leaves = steps
  induction steps generalizing leaves with
  | zero =>
      have few : leaves.length ≤ 1 := by
        by_contra several
        rw [height_above combine (Nat.lt_of_not_le several)] at isHeight
        cases isHeight
      change leaves.length = 1
      omega
  | succ steps induction =>
      have several : 2 ≤ leaves.length := by
        by_contra few
        rw [height_single (by omega)] at isHeight
        cases isHeight
      have shorter := above_length combine leaves
      rw [height_above combine several] at isHeight
      apply induction
      · apply List.ne_nil_of_length_pos
        omega
      · omega
      · exact Nat.succ.inj isHeight

/-- The root is the only node at the top. -/
theorem top_eq (combine : Node → Node → Node) {leaves : List Node} {top : Node}
    (isRoot : root combine leaves = some top) :
    (above combine)^[height leaves] leaves = [top] := by
  have nonempty : leaves ≠ [] := by
    rintro rfl
    cases isRoot
  obtain ⟨node, single⟩ := List.length_eq_one_iff.mp (top_length combine nonempty)
  rw [root, single] at isRoot
  rw [single, Option.some.inj isRoot]

theorem root_single (combine : Node → Node → Node) (node : Node) :
    root combine [node] = some node := by
  have single : height [node] = 0 := height_single (by simp)
  rw [root, single]
  rfl

/-- A longer list has the root of the layer above. -/
theorem root_above (combine : Node → Node → Node) {leaves : List Node}
    (several : 2 ≤ leaves.length) :
    root combine leaves = root combine (above combine leaves) := by
  rw [root, height_above combine several, Function.iterate_succ_apply]
  rfl

/-- The root, layer by layer. -/
def layeredRoot (combine : Node → Node → Node) : List Node → Option Node
  | [] => none
  | [node] => some node
  | first :: second :: rest =>
      layeredRoot combine (above combine (first :: second :: rest))
termination_by leaves => leaves.length
decreasing_by
  rw [above_length]
  simp only [List.length_cons]
  omega

theorem layeredRoot_eq_root (combine : Node → Node → Node) (leaves : List Node) :
    layeredRoot combine leaves = root combine leaves := by
  fun_induction layeredRoot combine leaves with
  | case1 => rfl
  | case2 node => exact (root_single combine node).symm
  | case3 first second rest ih =>
      rw [ih, ← root_above combine (by simp)]

/-- The leaves of a tree of the given height, with every node that is repeated
in place of a missing one. -/
def completed : Nat → {Node : Type u} → List Node → List Node
  | 0, _, leaves => leaves
  | height + 1, _, leaves =>
      (completed height (paired leaves)).flatMap fun pair => [pair.1, pair.2]

theorem paired_map (change : Node → Other) (layer : List Node) :
    paired (layer.map change) = (paired layer).map (Prod.map change change) := by
  fun_induction paired layer with
  | case1 first second rest induction =>
      rw [List.map_cons, List.map_cons, paired, induction, List.map_cons,
        Prod.map_apply]
  | case2 last => rfl
  | case3 => rfl

theorem mem_paired {layer : List Node} {pair : Node × Node}
    (member : pair ∈ paired layer) : pair.1 ∈ layer ∧ pair.2 ∈ layer := by
  fun_induction paired layer with
  | case1 first second rest induction =>
      rcases List.mem_cons.mp member with rfl | later
      · simp
      · have inRest := induction later
        simp [inRest]
  | case2 last => simp_all
  | case3 => cases member

/-- Completing repeats nodes, whatever they are. -/
theorem completed_map {Node Other : Type u} (height : Nat) (change : Node → Other)
    (leaves : List Node) :
    completed height (leaves.map change) = (completed height leaves).map change := by
  induction height generalizing Node Other with
  | zero => rfl
  | succ height induction =>
      simp only [completed]
      rw [paired_map, induction, List.flatMap_map, List.map_flatMap]
      rfl

theorem mem_completed {Node : Type u} {height : Nat} {leaves : List Node}
    {leaf : Node} (member : leaf ∈ completed height leaves) : leaf ∈ leaves := by
  induction height generalizing Node with
  | zero => exact member
  | succ height induction =>
      obtain ⟨pair, inPairs, isHalf⟩ := List.mem_flatMap.mp member
      obtain ⟨first, second⟩ := mem_paired (induction inPairs)
      rcases List.mem_cons.mp isHalf with rfl | isHalf
      · exact first
      · rw [List.mem_singleton.mp isHalf]
        exact second

theorem prefix_flatten_paired (leaves : List Node) :
    leaves <+: (paired leaves).flatMap fun pair => [pair.1, pair.2] := by
  fun_induction paired leaves with
  | case1 first second rest induction =>
      rw [List.flatMap_cons, List.cons_append, List.cons_append,
        List.nil_append]
      apply (List.prefix_cons_inj first).mpr
      exact (List.prefix_cons_inj second).mpr induction
  | case2 last => exact ⟨[last], rfl⟩
  | case3 => exact List.nil_prefix

/-- Completing appends nodes to the leaves. -/
theorem prefix_completed {Node : Type u} (height : Nat) (leaves : List Node) :
    leaves <+: completed height leaves := by
  induction height generalizing Node with
  | zero => exact List.prefix_rfl
  | succ height induction =>
      obtain ⟨added, continued⟩ := induction (paired leaves)
      apply (prefix_flatten_paired leaves).trans
      rw [completed, ← continued, List.flatMap_append]
      exact List.prefix_append _ _

theorem completed_injective {Node : Type u} {height : Nat}
    {first second : List Node} (sameLength : first.length = second.length)
    (same : completed height first = completed height second) :
    first = second := by
  obtain ⟨firstAdded, firstExtends⟩ := prefix_completed height first
  obtain ⟨secondAdded, secondExtends⟩ := prefix_completed height second
  rw [← firstExtends, ← secondExtends] at same
  exact List.append_inj_left same sameLength

theorem paired_flatten (pairs : List (Node × Node)) :
    paired (pairs.flatMap fun pair => [pair.1, pair.2]) = pairs := by
  induction pairs with
  | nil => rfl
  | cons pair pairs induction =>
      rw [List.flatMap_cons, List.cons_append, List.cons_append, List.nil_append,
        paired, induction]

/-- The top of a tree is the one over its completed leaves. -/
theorem top_completed {Node : Type u} (combine : Node → Node → Node) (height : Nat)
    (leaves : List Node) :
    (above combine)^[height] (completed height leaves) =
      (above combine)^[height] leaves := by
  induction height generalizing leaves with
  | zero => rfl
  | succ height induction =>
      rw [Function.iterate_succ_apply, Function.iterate_succ_apply, completed,
        above, paired_flatten, ← completed_map]
      exact induction (above combine leaves)

/-- Leaves that complete to the same list have the same root. -/
theorem root_eq_of_completed {Node : Type u} (combine : Node → Node → Node)
    {first second : List Node} (sameHeight : height first = height second)
    (same : completed (height first) first = completed (height second) second) :
    root combine first = root combine second := by
  rw [root, root, ← top_completed, same, sameHeight, top_completed]

/-- The pairs that are combined in so many layers. -/
def combinedPairs (combine : Node → Node → Node) :
    Nat → List Node → List (Node × Node)
  | 0, _ => []
  | height + 1, leaves =>
      paired leaves ++ combinedPairs combine height (above combine leaves)

/-- What holds of the leaves and of every combined node holds of all nodes. -/
theorem forall_combinedPairs {combine : Node → Node → Node} (condition : Node → Prop)
    (combined : ∀ first second, condition (combine first second))
    {height : Nat} {leaves : List Node} (all : ∀ leaf ∈ leaves, condition leaf)
    {pair : Node × Node} (member : pair ∈ combinedPairs combine height leaves) :
    condition pair.1 ∧ condition pair.2 := by
  induction height generalizing leaves with
  | zero => cases member
  | succ height induction =>
      rcases List.mem_append.mp member with here | higher
      · obtain ⟨first, second⟩ := mem_paired here
        exact ⟨all _ first, all _ second⟩
      · refine induction ?_ higher
        intro node inAbove
        obtain ⟨below, -, rfl⟩ := List.mem_map.mp inAbove
        exact combined below.1 below.2

theorem combinedPairs_add (combine : Node → Node → Node) (lower higher : Nat)
    (leaves : List Node) :
    combinedPairs combine (lower + higher) leaves =
      combinedPairs combine lower leaves ++
        combinedPairs combine higher ((above combine)^[lower] leaves) := by
  induction lower generalizing leaves with
  | zero => rw [Nat.zero_add]; rfl
  | succ lower induction =>
      rw [Nat.add_right_comm, combinedPairs, combinedPairs, induction,
        List.append_assoc, Function.iterate_succ_apply]

/-- No two of the pairs collide. -/
def CollisionFree (combine : Node → Node → Node) (pairs : List (Node × Node)) :
    Prop :=
  Set.InjOn (fun pair : Node × Node => combine pair.1 pair.2) {pair | pair ∈ pairs}

theorem CollisionFree.of_subset {combine : Node → Node → Node}
    {pairs more : List (Node × Node)} (free : CollisionFree combine more)
    (subset : pairs ⊆ more) : CollisionFree combine pairs :=
  Set.InjOn.mono (fun _ member => subset member) free

theorem map_injOn {change : Node → Other} {source : List Node}
    (injOn : Set.InjOn change {node | node ∈ source}) {first second : List Node}
    (firstIn : first ⊆ source) (secondIn : second ⊆ source)
    (same : first.map change = second.map change) : first = second := by
  induction first generalizing second with
  | nil => exact (List.map_eq_nil_iff.mp same.symm).symm
  | cons node first induction =>
      cases second with
      | nil => cases same
      | cons other second =>
          obtain ⟨sameNode, sameRest⟩ := List.cons.inj same
          rw [injOn (firstIn List.mem_cons_self) (secondIn List.mem_cons_self)
              sameNode,
            induction (List.subset_of_cons_subset firstIn)
              (List.subset_of_cons_subset secondIn) sameRest]

/-- Trees of one height that agree at the top have the same completed leaves. -/
theorem completed_eq_of_tops {combine : Node → Node → Node} {height : Nat}
    {first second : List Node}
    (free : CollisionFree combine (combinedPairs combine height first ++
      combinedPairs combine height second))
    (same : (above combine)^[height] first = (above combine)^[height] second) :
    completed height first = completed height second := by
  induction height generalizing first second with
  | zero => exact same
  | succ height induction =>
      have freeAbove : CollisionFree combine
          (combinedPairs combine height (above combine first) ++
            combinedPairs combine height (above combine second)) := by
        apply free.of_subset
        intro pair member
        simp only [combinedPairs, List.mem_append] at member ⊢
        tauto
      have layers := induction freeAbove same
      rw [above, above, completed_map, completed_map] at layers
      have pairs : completed height (paired first) =
          completed height (paired second) := by
        apply map_injOn free _ _ layers
        · intro pair member
          simp [combinedPairs, mem_completed member]
        · intro pair member
          simp [combinedPairs, mem_completed member]
      rw [completed, completed, pairs]

/-- The leaves of a lower tree with the same root are nodes of the higher one. -/
theorem leaf_combined_of_tops {combine : Node → Node → Node} {lower higher : Nat}
    {first second : List Node}
    (free : CollisionFree combine (combinedPairs combine lower first ++
      combinedPairs combine (higher + 1 + lower) second))
    (same : (above combine)^[lower] first =
      (above combine)^[higher + 1 + lower] second)
    {leaf : Node} (member : leaf ∈ first) :
    ∃ pair ∈ combinedPairs combine (higher + 1 + lower) second,
      combine pair.1 pair.2 = leaf := by
  rw [Nat.add_comm (higher + 1) lower, Function.iterate_add_apply] at same
  rw [combinedPairs_add] at free ⊢
  have leaves := completed_eq_of_tops (free.of_subset (by simp)) same
  have inLayer : leaf ∈ (above combine)^[higher + 1] second := by
    apply mem_completed
    rw [← leaves]
    exact (prefix_completed lower first).subset member
  rw [Function.iterate_succ_apply', above] at inLayer
  obtain ⟨pair, inPairs, isLeaf⟩ := List.mem_map.mp inLayer
  refine ⟨pair, List.mem_append_left _ ?_, isLeaf⟩
  rw [combinedPairs_add]
  apply List.mem_append_right
  simpa [combinedPairs] using inPairs

end MerkleTree
