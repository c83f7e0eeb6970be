import Blocxxi.HashViews
import Blocxxi.KademliaNode
import Mathlib.Data.Nat.Bitwise

/-!
# Log distances

The distance of two nodes is measured by its highest bit.  It is found over words,
by counting zero bits, and over bytes, by the prefix that the ids share; both agree
with the number that the distance is.
-/

namespace Blocxxi

namespace Kademlia

open Cxx

/-- The table counts the zero bits in front of every byte. -/
theorem lzcount_eq {byte : UInt8} (nonzero : byte ≠ 0) :
    lzcount.getD byte.toNat 0 = 8 - byte.toNat.size := by
  have table : ∀ index : Fin 256, index.val ≠ 0 →
      lzcount.getD index.val 0 < 8 ∧
        2 ^ (7 - lzcount.getD index.val 0) ≤ index.val ∧
          index.val < 2 ^ (8 - lzcount.getD index.val 0) := by
    decide +kernel
  have isNonzero : byte.toNat ≠ 0 := fun isZero => nonzero (UInt8.toNat_inj.mp isZero)
  obtain ⟨few, reaches, below⟩ := table ⟨byte.toNat, byte.toNat_lt⟩ isNonzero
  have atMost := Nat.size_le.mpr below
  have atLeast := Nat.lt_size.mpr reaches
  dsimp only at few atMost atLeast
  omega

/-- The bytes of two texts joined by exclusive or, as digits of a number. -/
def joinedDigits (first second : ByteString) : List (BitVec 8) :=
  (List.zipWith (· ^^^ ·) first second).map UInt8.toBitVec

/-- The loop counts the zero bits in front of the joined bytes. -/
theorem sharedPrefixFrom_eq {first second : ByteString}
    (lengths : first.length = second.length) (lz : Nat) :
    sharedPrefixFrom first second lz =
      lz + BitDigits.leadingZeros (joinedDigits first second) := by
  induction first generalizing second lz with
  | nil =>
      rw [sharedPrefixFrom, joinedDigits, List.zipWith_nil_left, List.map_nil,
        BitDigits.leadingZeros_nil, Nat.add_zero]
      simp
  | cons head rest ih =>
      cases second with
      | nil => simp at lengths
      | cons other others =>
          have restLengths : rest.length = others.length := by simpa using lengths
          rw [sharedPrefixFrom, joinedDigits, List.zipWith_cons_cons, List.map_cons]
          split
          · rename_i same
            have zeroDigit : (head ^^^ other).toBitVec = 0 := by
              rw [same]
              rfl
            rw [zeroDigit, BitDigits.leadingZeros_cons_zero, ih restLengths, joinedDigits]
            omega
          · rename_i differ
            have digit : (head ^^^ other).toBitVec ≠ 0 := fun isZero =>
              differ (UInt8.toBitVec_inj.mp isZero)
            rw [lzcount_eq differ, BitDigits.leadingZeros_cons digit]
            rfl

section Distances

variable {Address : Type}

theorem distanceTo_value (a b : NodeObject Address) :
    (a.distanceTo b.nodeId).value = a.nodeId.value ^^^ b.nodeId.value :=
  @Hash.value_xor 5 a.nodeId b.nodeId

theorem distance_lt (a b : NodeObject Address) :
    a.nodeId.value ^^^ b.nodeId.value < 2 ^ 160 := by
  rw [← distanceTo_value, Hash.value]
  have below := BigEndian.value_lt (a.distanceTo b.nodeId).bytes
  rwa [Hash.size_eq] at below

theorem sharedPrefixSize_eq (a b : NodeObject Address) :
    sharedPrefixSize a b = 160 - (a.nodeId.value ^^^ b.nodeId.value).size := by
  have lengths := Hash.same_length a.nodeId b.nodeId
  have isLength : (joinedDigits a.nodeId.bytes b.nodeId.bytes).length = 20 := by
    rw [joinedDigits, List.length_map, List.length_zipWith, lengths, Nat.min_self,
      b.nodeId.size_eq]
  have joined : BitDigits.number (joinedDigits a.nodeId.bytes b.nodeId.bytes) =
      a.nodeId.value ^^^ b.nodeId.value := by
    rw [← distanceTo_value, Hash.value, Hash.value_eq_number, joinedDigits]
    exact congrArg (fun bytes => BitDigits.number (bytes.map UInt8.toBitVec))
      (@Hash.bytes_xor 5 a.nodeId b.nodeId).symm
  rw [sharedPrefixSize, sharedPrefixFrom_eq lengths, Nat.zero_add, BitDigits.leadingZeros,
    isLength, joined]

theorem logDistanceTo_eq {scan : Option Hash.BitScan}
    (specified : ∀ found ∈ scan, found.AsSpecified) (a b : NodeObject Address) :
    a.logDistanceTo scan b.nodeId =
      sizeSub 159 (160 - (a.nodeId.value ^^^ b.nodeId.value).size) := by
  rw [NodeObject.logDistanceTo, ← distanceTo_value]
  exact congrArg (sizeSub 159)
    (@Hash.leadingZeroBits_eq 5 scan specified (a.distanceTo b.nodeId))

/-- A distance with bits lies between two powers of two in one place only. -/
theorem size_unique {distance place : Nat} (reaches : 2 ^ place ≤ distance)
    (below : distance < 2 ^ (place + 1)) : distance.size = place + 1 := by
  have atMost := Nat.size_le.mpr below
  have atLeast := Nat.lt_size.mpr reaches
  omega

/-- Both ways of measuring agree, the log distance is symmetric, and that of
different ids is the place of the highest bit in which they differ. -/
theorem logDistance_agrees {scan : Option Hash.BitScan}
    (specified : ∀ found ∈ scan, found.AsSpecified) (a b : NodeObject Address) :
    a.logDistanceTo scan b.nodeId = sizeSub 159 (sharedPrefixSize a b) ∧
      a.logDistanceTo scan b.nodeId = b.logDistanceTo scan a.nodeId ∧
      (a.nodeId = b.nodeId → a.logDistanceTo scan b.nodeId = 2 ^ 64 - 1) ∧
      (a.distanceTo b.nodeId).value = a.nodeId.value ^^^ b.nodeId.value ∧
      (a.nodeId ≠ b.nodeId → ∀ place,
        place < 160 ∧ 2 ^ place ≤ (a.distanceTo b.nodeId).value ∧
            (a.distanceTo b.nodeId).value < 2 ^ (place + 1) ↔
          place = a.logDistanceTo scan b.nodeId) := by
  refine ⟨?_, ?_, ?_, distanceTo_value a b, ?_⟩
  · rw [logDistanceTo_eq specified, sharedPrefixSize_eq]
  · rw [logDistanceTo_eq specified, logDistanceTo_eq specified, Nat.xor_comm]
  · intro same
    rw [logDistanceTo_eq specified, same, Nat.xor_self]
    rfl
  · intro different place
    have nonzero : a.nodeId.value ^^^ b.nodeId.value ≠ 0 :=
      Nat.xor_ne_zero_iff.mpr (Hash.value_injective.ne different)
    have fits := Nat.size_le.mpr (distance_lt a b)
    have positive := Nat.size_pos.mpr (Nat.pos_of_ne_zero nonzero)
    rw [logDistanceTo_eq specified, distanceTo_value, sizeSub_of_le (by omega) (by decide)]
    constructor
    · rintro ⟨-, reaches, below⟩
      have isSize := size_unique reaches below
      omega
    · intro isPlace
      refine ⟨by omega, ?_, ?_⟩
      · rw [← Nat.lt_size]
        omega
      · rw [← Nat.size_le]
        omega

/-- Two nodes whose ids differ in the first bit. -/
def farNodes : NodeObject Unit × NodeObject Unit :=
  (.ofEndpoint Hash.zero ⟨(), 1⟩,
    .ofEndpoint ⟨0x80 :: List.replicate 19 0, rfl⟩ ⟨(), 2⟩)

theorem logDistance_far :
    farNodes.1.logDistanceTo (some Hash.log2Clz) farNodes.2.nodeId =
        sizeSub 159 (sharedPrefixSize farNodes.1 farNodes.2) ∧
      sharedPrefixSize farNodes.1 farNodes.2 = 0 := by
  have specified : ∀ found ∈ some Hash.log2Clz, found.AsSpecified := by
    intro found isFound
    rw [← Option.mem_some.mp isFound]
    exact Hash.log2Clz_asSpecified
  have agrees := logDistance_agrees specified farNodes.1 farNodes.2
  exact ⟨agrees.1, by decide +kernel⟩

end Distances

end Kademlia

end Blocxxi
