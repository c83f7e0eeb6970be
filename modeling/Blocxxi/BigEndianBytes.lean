import Mathlib.Tactic.Ring
import Mathlib.Data.List.Induction
import Mathlib.Data.List.Lex

/-!
# Numbers in big-endian bytes

The number that a string of bytes denotes, most significant byte first.  On
strings of one length the lexicographic order is the order of the numbers.
-/

namespace BigEndian

/-- The number that the bytes denote. -/
def value (bytes : List UInt8) : Nat :=
  bytes.foldl (fun value byte => 256 * value + byte.toNat) 0

@[simp]
theorem value_nil : value [] = 0 := rfl

theorem value_concat (bytes : List UInt8) (last : UInt8) :
    value (bytes ++ [last]) = 256 * value bytes + last.toNat := by
  simp [value]

theorem value_append (first second : List UInt8) :
    value (first ++ second) = value first * 256 ^ second.length + value second := by
  induction second using List.reverseRecOn with
  | nil => simp
  | append_singleton second last ih =>
      rw [← List.append_assoc, value_concat, value_concat, ih, List.length_append,
        List.length_singleton, pow_succ]
      ring

theorem value_cons (first : UInt8) (rest : List UInt8) :
    value (first :: rest) = first.toNat * 256 ^ rest.length + value rest := by
  have split := value_append [first] rest
  simpa [value] using split

@[simp]
theorem value_zeros (count : Nat) : value (List.replicate count 0) = 0 := by
  induction count with
  | zero => rfl
  | succ count ih => simp [List.replicate_succ, value_cons, ih]

theorem value_lt (bytes : List UInt8) : value bytes < 256 ^ bytes.length := by
  induction bytes with
  | nil => simp
  | cons first rest ih =>
      have small := first.toNat_lt
      rw [value_cons, List.length_cons, pow_succ]
      calc
        first.toNat * 256 ^ rest.length + value rest
          < first.toNat * 256 ^ rest.length + 256 ^ rest.length :=
            Nat.add_lt_add_left ih _
        _ = (first.toNat + 1) * 256 ^ rest.length := by ring
        _ ≤ 256 * 256 ^ rest.length := Nat.mul_le_mul_right _ (by omega)
        _ = 256 ^ rest.length * 256 := by ring

/-- The first byte in which two numbers differ decides between them. -/
theorem value_cons_lt_iff (first second : UInt8) {firstRest secondRest : List UInt8}
    (lengths : firstRest.length = secondRest.length) :
    value (first :: firstRest) < value (second :: secondRest) ↔
      first < second ∨ first = second ∧ value firstRest < value secondRest := by
  have firstLt := value_lt firstRest
  have secondLt := value_lt secondRest
  rw [lengths] at firstLt
  rw [value_cons, value_cons, lengths, UInt8.lt_iff_toNat_lt, ← UInt8.toNat_inj]
  generalize 256 ^ secondRest.length = scale at firstLt secondLt ⊢
  rcases lt_trichotomy first.toNat second.toNat with less | same | more
  · have scaled : (first.toNat + 1) * scale ≤ second.toNat * scale :=
      Nat.mul_le_mul_right scale less
    rw [Nat.succ_mul] at scaled
    exact ⟨fun _ => Or.inl less, fun _ => by omega⟩
  · rw [same]
    simp
  · have scaled : (second.toNat + 1) * scale ≤ first.toNat * scale :=
      Nat.mul_le_mul_right scale more
    rw [Nat.succ_mul] at scaled
    exact ⟨fun _ => by omega, fun _ => by omega⟩

theorem lt_iff {first second : List UInt8} (lengths : first.length = second.length) :
    first < second ↔ value first < value second := by
  induction first generalizing second with
  | nil =>
      rw [List.eq_nil_of_length_eq_zero lengths.symm]
      simp
  | cons head rest ih =>
      cases second with
      | nil => simp at lengths
      | cons other others =>
          have restLengths : rest.length = others.length := by simpa using lengths
          rw [List.cons_lt_cons_iff, ih restLengths,
            value_cons_lt_iff head other restLengths]

end BigEndian
