import Mathlib.Data.List.Induction
import Mathlib.Data.List.Nodup
import Mathlib.Data.Set.Function

/-!
# Chaining over blocks

A long list is worked off in blocks of one size, each of which changes a state,
and what does not fill a block waits for more.  Where the function that changes the
state does not collide, lists of blocks that lead to the same state end alike, so
that messages whose blocks never end in those of another one are told apart.
-/

namespace BlockChaining

universe u v

section Blocks

variable {Item : Type u} (size : Nat)

/-- The blocks that are filled, in their order. -/
def wholeBlocks (items : List Item) : List (List Item) :=
  (List.range (items.length / size)).map fun index =>
    (items.drop (index * size)).take size

/-- The items behind the last block. -/
def residue (items : List Item) : List Item :=
  items.drop (items.length / size * size)

variable {size}

theorem wholeBlocks_of_lt {items : List Item} (few : items.length < size) :
    wholeBlocks size items = [] := by
  rw [wholeBlocks, Nat.div_eq_of_lt few]
  rfl

theorem residue_of_lt {items : List Item} (few : items.length < size) :
    residue size items = items := by
  rw [residue, Nat.div_eq_of_lt few, Nat.zero_mul, List.drop_zero]

theorem residue_length (items : List Item) :
    (residue size items).length = items.length % size := by
  rw [residue, List.length_drop, Nat.mod_eq_sub_div_mul]

theorem wholeBlocks_single {block : List Item} (nonempty : block ≠ [])
    (full : block.length = size) : wholeBlocks size block = [block] := by
  have positive : 0 < size := full ▸ List.length_pos_iff.mpr nonempty
  rw [wholeBlocks, full, Nat.div_self positive]
  simp [← full]

/-- Blocks in front of a list are worked off before those of the list. -/
theorem wholeBlocks_append {front items : List Item} (whole : size ∣ front.length) :
    wholeBlocks size (front ++ items) =
      wholeBlocks size front ++ wholeBlocks size items := by
  obtain ⟨count, isCount⟩ := whole
  rcases Nat.eq_zero_or_pos size with rfl | positive
  · simp [wholeBlocks]
  have counts : (front ++ items).length / size = count + items.length / size := by
    rw [List.length_append, isCount, Nat.mul_add_div positive]
  have frontCount : front.length / size = count := by
    rw [isCount, Nat.mul_div_cancel_left count positive]
  rw [wholeBlocks, wholeBlocks, wholeBlocks, counts, frontCount, List.range_add,
    List.map_append, List.map_map]
  congr 1
  · apply List.map_congr_left
    intro index inRange
    have fits : (index + 1) * size ≤ count * size :=
      Nat.mul_le_mul_right size (List.mem_range.mp inRange)
    rw [Nat.succ_mul, Nat.mul_comm count, ← isCount] at fits
    rw [List.drop_append_of_le_length (by omega), List.take_append_of_le_length]
    rw [List.length_drop]
    omega
  · apply List.map_congr_left
    intro index _
    have behind : (count + index) * size = front.length + index * size := by
      rw [Nat.add_mul, isCount, Nat.mul_comm count]
    rw [Function.comp_apply, behind, ← List.drop_drop, List.drop_left]

theorem residue_append {front items : List Item} (whole : size ∣ front.length) :
    residue size (front ++ items) = residue size items := by
  obtain ⟨count, isCount⟩ := whole
  rcases Nat.eq_zero_or_pos size with rfl | positive
  · have none : front = [] := List.eq_nil_of_length_eq_zero (by omega)
    rw [none, List.nil_append]
  have behind : (front ++ items).length / size * size =
      front.length + items.length / size * size := by
    rw [List.length_append, isCount, Nat.mul_add_div positive, Nat.add_mul,
      Nat.mul_comm count]
  rw [residue, behind, ← List.drop_drop, List.drop_left, residue]

/-- A list is a front of whole blocks, and its residue. -/
theorem exists_front (items : List Item) :
    ∃ front, size ∣ front.length ∧ items = front ++ residue size items ∧
      wholeBlocks size items = wholeBlocks size front := by
  let count := items.length / size * size
  have inside : count ≤ items.length := Nat.div_mul_le_self _ _
  have whole : size ∣ (items.take count).length := by
    rw [List.length_take, Nat.min_eq_left inside]
    exact Nat.dvd_mul_left _ _
  have split : items = items.take count ++ residue size items :=
    (List.take_append_drop count items).symm
  refine ⟨items.take count, whole, split, ?_⟩
  have blocks := @wholeBlocks_append _ size (items.take count) (residue size items) whole
  rw [← split] at blocks
  rcases Nat.eq_zero_or_pos size with isZero | positive
  · simp [isZero, wholeBlocks]
  · have few : (residue size items).length < size := by
      rw [residue_length]
      exact Nat.mod_lt _ positive
    rw [blocks, wholeBlocks_of_lt few, List.append_nil]

/-- Only the residue of what came before matters for what comes next. -/
theorem wholeBlocks_append_residue (items more : List Item) :
    wholeBlocks size (items ++ more) =
      wholeBlocks size items ++ wholeBlocks size (residue size items ++ more) := by
  obtain ⟨front, whole, split, blocks⟩ := @exists_front _ size items
  rw [blocks, ← wholeBlocks_append whole, ← List.append_assoc, ← split]

theorem residue_append_residue (items more : List Item) :
    residue size (items ++ more) = residue size (residue size items ++ more) := by
  obtain ⟨front, whole, split, -⟩ := @exists_front _ size items
  calc
    residue size (items ++ more)
      = residue size (front ++ (residue size items ++ more)) := by
        rw [← List.append_assoc, ← split]
    _ = residue size (residue size items ++ more) := residue_append whole

/-- Whole blocks are all of a list that has no residue. -/
theorem flatten_wholeBlocks {items : List Item} (whole : size ∣ items.length) :
    (wholeBlocks size items).flatten = items := by
  obtain ⟨count, isCount⟩ := whole
  induction count generalizing items with
  | zero =>
      have none : items = [] := List.eq_nil_of_length_eq_zero (by omega)
      subst none
      simp [wholeBlocks]
  | succ count ih =>
      rcases Nat.eq_zero_or_pos size with rfl | positive
      · have none : items = [] := List.eq_nil_of_length_eq_zero (by omega)
        subst none
        simp [wholeBlocks]
      rw [Nat.mul_succ] at isCount
      have full : (items.take size).length = size := by
        rw [List.length_take]
        omega
      have nonempty : items.take size ≠ [] := by
        apply List.ne_nil_of_length_pos
        omega
      have blocks := @wholeBlocks_append _ size (items.take size) (items.drop size)
        (by simp [full])
      rw [List.take_append_drop, wholeBlocks_single nonempty full] at blocks
      rw [blocks, List.flatten_append, ih (by rw [List.length_drop]; omega)]
      simp

end Blocks

section Chains

variable {State : Type u} {Block : Type v} (compress : State → Block → State)

/-- The pairs that are compressed on the way. -/
def inputs : State → List Block → List (State × Block)
  | _, [] => []
  | state, block :: rest => (state, block) :: inputs (compress state block) rest

theorem inputs_append (state : State) (front blocks : List Block) :
    inputs compress state (front ++ blocks) =
      inputs compress state front ++
        inputs compress (front.foldl compress state) blocks := by
  induction front generalizing state with
  | nil => rfl
  | cons block front ih =>
      rw [List.cons_append, inputs, ih, inputs, List.cons_append, List.foldl_cons]

/-- No two of the pairs are compressed to the same state. -/
def CollisionFree (pairs : List (State × Block)) : Prop :=
  Set.InjOn (Function.uncurry compress) {pair | pair ∈ pairs}

variable {compress}

theorem CollisionFree.of_subset {pairs more : List (State × Block)}
    (free : CollisionFree compress more) (subset : pairs ⊆ more) :
    CollisionFree compress pairs :=
  Set.InjOn.mono (fun _ member => subset member) free

theorem CollisionFree.of_nodup {pairs : List (State × Block)}
    (apart : (pairs.map (Function.uncurry compress)).Nodup) :
    CollisionFree compress pairs :=
  fun _ inPairs _ inOthers same => List.inj_on_of_nodup_map apart inPairs inOthers same

/-- Chains that arrive at one state have the same blocks from their ends on, as far
as the shorter one goes. -/
theorem suffix_of_foldl_eq {state : State} {first second : List Block}
    (free : CollisionFree compress
      (inputs compress state first ++ inputs compress state second))
    (shorter : first.length ≤ second.length)
    (same : first.foldl compress state = second.foldl compress state) :
    first <:+ second := by
  induction first using List.reverseRecOn generalizing second with
  | nil => exact List.nil_suffix
  | append_singleton first block ih =>
      rcases List.eq_nil_or_concat second with rfl | ⟨others, other, rfl⟩
      · simp at shorter
      rw [List.concat_eq_append] at *
      simp only [inputs_append, inputs] at free
      rw [List.foldl_append, List.foldl_append] at same
      have last := @free (first.foldl compress state, block) (by simp)
        (others.foldl compress state, other) (by simp) same
      obtain ⟨states, rfl⟩ := Prod.mk.inj last
      have before := @ih others
        (free.of_subset (by intro pair; simp only [List.mem_append]; tauto))
        (by simpa using shorter) states
      exact List.suffix_append_inj_of_length_eq rfl |>.mpr ⟨before, rfl⟩

/-- Messages are told apart where no message's blocks end in those of another one. -/
theorem message_eq_of_foldl_eq {Message : Type*} {blocks : Message → List Block}
    {state : State} {first second : Message}
    (suffixFree : blocks first <:+ blocks second ∨ blocks second <:+ blocks first →
      first = second)
    (free : CollisionFree compress
      (inputs compress state (blocks first) ++ inputs compress state (blocks second)))
    (same : (blocks first).foldl compress state =
      (blocks second).foldl compress state) :
    first = second := by
  rcases Nat.le_total (blocks first).length (blocks second).length with less | more
  · exact suffixFree (.inl (suffix_of_foldl_eq free less same))
  · refine suffixFree (.inr (suffix_of_foldl_eq ?_ more same.symm))
    exact free.of_subset (by intro pair; simp only [List.mem_append]; tauto)

end Chains

end BlockChaining
