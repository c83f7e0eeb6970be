import Blocxxi.HashWords

/-!
# The views of a hash as a number

A hash is compared, counted, shown as bits and joined with another one through its
words, and each way swaps them for itself.  All of them speak of one number, the one
that the bytes spell.
-/

namespace Blocxxi

namespace Hash

/-- The count of a word with bits is what is missing of its size. -/
def CountsWords (leadingZeros : UInt32 → Nat) : Prop :=
  ∀ word : UInt32, word ≠ 0 → leadingZeros word = 32 - word.toNat.size

theorem networkToHost_ne_zero {word : UInt32} (nonzero : word ≠ 0) :
    networkToHost word ≠ 0 := by
  intro isZero
  have swapped := hostToNetwork_toNat word
  rw [show hostToNetwork word = 0 from isZero, UInt32.toNat_zero] at swapped
  have no_byte {fourth third second first : Nat}
      (sum : 0 = fourth + 2 ^ 8 * third + 2 ^ 16 * second + 2 ^ 24 * first) :
      fourth = 0 ∧ third = 0 ∧ second = 0 ∧ first = 0 := by
    omega
  obtain ⟨fourth, third, second, first⟩ := no_byte swapped
  -- Behind the bytes the equation between them is only in the way.
  clear swapped
  have wordLt := word.toNat_lt
  apply nonzero
  apply UInt32.toNat_inj.mp
  rw [UInt32.toNat_zero]
  omega

/-- The loop counts the zero bits in front of the number of the words. -/
theorem countFrom_eq {leadingZeros : UInt32 → Nat} (counts : CountsWords leadingZeros)
    (index : Nat) (words : List UInt32) :
    countFrom leadingZeros index words =
      index * 32 + BitDigits.leadingZeros (digits words) := by
  induction words generalizing index with
  | nil =>
      rw [countFrom, digits, List.map_nil, BitDigits.leadingZeros_nil, Nat.add_zero]
  | cons word rest ih =>
      rw [countFrom, digits, List.map_cons]
      split
      · rename_i isZero
        have zeroDigit : (networkToHost word).toBitVec = 0 := by
          rw [isZero]
          rfl
        rw [zeroDigit, BitDigits.leadingZeros_cons_zero, ih, digits]
        omega
      · rename_i nonzero
        have swapped := networkToHost_ne_zero nonzero
        have digit : (networkToHost word).toBitVec ≠ 0 := fun isZero =>
          swapped (UInt32.toBitVec_inj.mp isZero)
        rw [counts _ swapped, BitDigits.leadingZeros_cons digit]
        rfl

theorem leadingZeros_digits {words : Nat} (hash : Hash (32 * words)) :
    BitDigits.leadingZeros (digits hash.storage) = 32 * words - hash.value.size := by
  have isWords : (digits hash.storage).length = words := by
    rw [digits, List.length_map, storage_length]
  rw [BitDigits.leadingZeros, isWords, storage, number_wordsOf hash.whole_bytes, value]

theorem countsWords_of_asSpecified {scan : BitScan} (specified : scan.AsSpecified) :
    CountsWords scan.leadingZeros := by
  intro word nonzero
  cases scan with
  | builtinClz count =>
      obtain ⟨few, reaches, below⟩ := specified word nonzero
      have atMost := Nat.size_le.mpr below
      have atLeast := Nat.lt_size.mpr reaches
      rw [BitScan.leadingZeros]
      omega
  | bitScanReverse position =>
      obtain ⟨reaches, below⟩ := specified word nonzero
      have atMost := Nat.size_le.mpr below
      have atLeast := Nat.lt_size.mpr reaches
      rw [BitScan.leadingZeros]
      omega

/-- Five rounds spread every bit over all places below it. -/
theorem roundDown_toNat (word : UInt32) :
    (roundDown word).toNat = 2 ^ word.toNat.size - 1 := by
  have one := (BitDigits.filled_one word.toNat).double
  have two := one.double
  have four := two.double
  have eight := four.double
  have sixteen := eight.double
  have fits : word.toNat.size ≤ 2 * (2 * (2 * (2 * (2 * 1)))) :=
    Nat.size_le.mpr word.toNat_lt
  rw [← sixteen.eq_ones fits]
  simp only [roundDown, UInt32.toNat_or, UInt32.toNat_shiftRight]
  rfl

theorem countsWords_software : CountsWords softwareLeadingZeros := by
  intro word nonzero
  have table : ∀ top : Fin 32,
      multiplyDeBruijnBitPosition.getD
        ((UInt32.ofNat (2 ^ (top.val + 1) - 1) * 0x07C4ACDD) >>> 27).toNat 0 =
          top.val := by
    decide +kernel
  have positive : 0 < word.toNat.size := by
    rw [Nat.size_pos, Nat.pos_iff_ne_zero]
    exact fun isZero => nonzero (UInt32.toNat_inj.mp isZero)
  have fits : word.toNat.size ≤ 32 := Nat.size_le.mpr word.toNat_lt
  have found := table ⟨word.toNat.size - 1, by omega⟩
  have isRounded : roundDown word =
      UInt32.ofNat (2 ^ (word.toNat.size - 1 + 1) - 1) := by
    rw [Nat.sub_add_cancel positive, ← roundDown_toNat, UInt32.ofNat_toNat]
  rw [softwareLeadingZeros, isRounded, found]
  change 31 - (word.toNat.size - 1) = 32 - word.toNat.size
  omega

/-- Whatever the compiler has, the bits in front of the number are counted. -/
theorem leadingZeroBits_eq {words : Nat} {scan : Option BitScan}
    (specified : ∀ found ∈ scan, found.AsSpecified) (hash : Hash (32 * words)) :
    hash.leadingZeroBits scan = 32 * words - hash.value.size := by
  have counts : ∃ leadingZeros, CountsWords leadingZeros ∧
      hash.leadingZeroBits scan = countFrom leadingZeros 0 hash.storage := by
    cases scan with
    | none => exact ⟨_, countsWords_software, rfl⟩
    | some found => exact ⟨_, countsWords_of_asSpecified (specified found rfl), rfl⟩
  obtain ⟨leadingZeros, isCount, isLoop⟩ := counts
  rw [isLoop, countFrom_eq isCount, leadingZeros_digits, Nat.zero_mul, Nat.zero_add]

theorem lessWords_iff {first second : List UInt32} (lengths : first.length = second.length) :
    lessWords first second = true ↔
      BitDigits.number (digits first) < BitDigits.number (digits second) := by
  induction first generalizing second with
  | nil =>
      rw [List.eq_nil_of_length_eq_zero lengths.symm]
      simp [lessWords]
  | cons head rest ih =>
      cases second with
      | nil => simp at lengths
      | cons other others =>
          have restLengths : rest.length = others.length := by simpa using lengths
          have sameLengths : (digits rest).length = (digits others).length := by
            rw [digits, digits, List.length_map, List.length_map, restLengths]
          have decides : BitDigits.number (digits (head :: rest)) <
              BitDigits.number (digits (other :: others)) ↔
                (networkToHost head).toBitVec < (networkToHost other).toBitVec ∨
                  (networkToHost head).toBitVec = (networkToHost other).toBitVec ∧
                    BitDigits.number (digits rest) < BitDigits.number (digits others) :=
            BitDigits.number_cons_lt_iff sameLengths
          rw [decides, ← UInt32.lt_iff_toBitVec_lt, UInt32.toBitVec_inj, ← ih restLengths,
            lessWords]
          split_ifs with less more
          · simp [less]
          · simp [less, (UInt32.ne_of_lt more).symm]
          · simp [UInt32.le_antisymm (UInt32.not_lt.mp more) (UInt32.not_lt.mp less)]

theorem less_iff {words : Nat} (first second : Hash (32 * words)) :
    first.less second = true ↔ first.value < second.value := by
  have lengths : first.storage.length = second.storage.length := by
    rw [storage_length, storage_length]
  rw [less, lessWords_iff lengths, storage, storage, number_wordsOf first.whole_bytes,
    number_wordsOf second.whole_bytes]
  rfl

theorem all_zip_iff {first second : ByteString} (lengths : first.length = second.length) :
    ((first.zip second).all fun pair => pair.1 == pair.2) = true ↔ first = second := by
  induction first generalizing second with
  | nil =>
      rw [List.eq_nil_of_length_eq_zero lengths.symm]
      simp
  | cons head rest ih =>
      cases second with
      | nil => simp at lengths
      | cons other others =>
          have restLengths : rest.length = others.length := by simpa using lengths
          simp only [List.zip_cons_cons, List.all_cons, Bool.and_eq_true, beq_iff_eq,
            ih restLengths, List.cons.injEq]

theorem equal_iff {bits : Nat} (first second : Hash bits) :
    first.equal second = true ↔ first = second := by
  rw [equal, all_zip_iff (same_length first second), Hash.ext_iff]

theorem value_eq_number (bytes : ByteString) :
    BigEndian.value bytes = BitDigits.number (bytes.map UInt8.toBitVec) := by
  rw [BitDigits.number, List.foldl_map]
  rfl

theorem value_injective {bits : Nat} : Function.Injective (value : Hash bits → Nat) := by
  intro first second same
  rw [value, value, value_eq_number, value_eq_number] at same
  have sameDigits := BitDigits.eq_of_number_eq (by simp [same_length first second]) same
  have injective : Function.Injective UInt8.toBitVec := fun _ _ => UInt8.toBitVec_inj.mp
  exact Hash.ext (List.map_injective_iff.mpr injective sameDigits)

theorem value_xor {words : Nat} (first second : Hash (32 * words)) :
    (first.xor second).value = first.value ^^^ second.value := by
  have digits_xor : (List.zipWith (· ^^^ ·) first.bytes second.bytes).map UInt8.toBitVec =
      List.zipWith (· ^^^ ·) (first.bytes.map UInt8.toBitVec)
        (second.bytes.map UInt8.toBitVec) := by
    rw [List.map_zipWith, List.zipWith_map]
    rfl
  rw [value, bytes_xor, value_eq_number, digits_xor,
    BitDigits.number_xor (by simp [same_length first second]), ← value_eq_number,
    ← value_eq_number]
  rfl

theorem toBitSetFrom_getLsbD {bits : Nat} (words : List UInt32)
    (fits : 32 * words.length ≤ bits) (set : BitVec bits) (index : Nat) :
    (toBitSetFrom bits words (32 * words.length) set).getLsbD index =
      (set.getLsbD index || (BitDigits.number (digits words)).testBit index) := by
  induction words generalizing set with
  | nil => simp [toBitSetFrom, digits]
  | cons part rest ih =>
      have shifted : 32 * (part :: rest).length - 32 = 32 * rest.length := by
        rw [List.length_cons]
        omega
      rw [List.length_cons] at fits
      have partLt := (hostToNetwork part).toNat_lt
      have placed : (BitVec.ofNat bits (hostToNetwork part).toNat <<<
          (32 * rest.length)).getLsbD index =
            (decide (32 * rest.length ≤ index) &&
              (hostToNetwork part).toNat.testBit (index - 32 * rest.length)) := by
        rw [BitVec.getLsbD_shiftLeft, BitVec.getLsbD_ofNat]
        by_cases inside : index < bits
        · have insidePart : index - 32 * rest.length < bits := by omega
          by_cases low : index < 32 * rest.length
          · simp [low]
          · simp [inside, low, insidePart, Nat.not_lt.mp low]
        · -- The set has no bit there, and neither has the word.
          have wide : 2 ^ 32 ≤ 2 ^ (index - 32 * rest.length) :=
            Nat.pow_le_pow_right (by decide) (by omega)
          have noBit : (hostToNetwork part).toNat.testBit
              (index - 32 * rest.length) = false :=
            Nat.testBit_lt_two_pow (lt_of_lt_of_le partLt wide)
          simp [inside, noBit]
      have split : (BitDigits.number (digits (part :: rest))).testBit index =
          if index < 32 * rest.length then (BitDigits.number (digits rest)).testBit index
          else (hostToNetwork part).toNat.testBit (index - 32 * rest.length) := by
        have isSplit := BitDigits.testBit_number_cons (networkToHost part).toBitVec
          (digits rest) index
        rwa [digits, List.length_map] at isSplit
      have below := BitDigits.number_lt (digits rest)
      rw [digits, List.length_map] at below
      rw [toBitSetFrom, shifted, ih (by omega), BitVec.getLsbD_or, placed, split,
        Bool.or_assoc]
      congr 1
      split_ifs with low
      · simp [Nat.not_le.mpr low]
      · have wide : 2 ^ (32 * rest.length) ≤ 2 ^ index :=
          Nat.pow_le_pow_right (by decide) (Nat.not_lt.mp low)
        have noBit : (BitDigits.number (digits rest)).testBit index = false :=
          Nat.testBit_lt_two_pow (lt_of_lt_of_le below wide)
        simp [noBit, Nat.not_lt.mp low]

theorem toBitSet_getLsbD {words : Nat} (hash : Hash (32 * words)) (index : Nat) :
    hash.toBitSet.getLsbD index = hash.value.testBit index := by
  have isLength : 32 * words = 32 * hash.storage.length := by
    rw [storage_length]
  have read := toBitSetFrom_getLsbD hash.storage (Nat.le_of_eq isLength.symm)
    (0 : BitVec (32 * words)) index
  rw [← isLength] at read
  rw [toBitSet, read, storage, number_wordsOf hash.whole_bytes]
  simp [value]

/-- The operators, the bit counts and the bits of a hash are those of the number that
its bytes spell. -/
theorem views_agree {words : Nat} {scan : BitScan} (specified : scan.AsSpecified) :
    (∀ first second : Hash (32 * words),
      (first.less second = true ↔ first.value < second.value) ∧
      (first.equal second = true ↔ first.value = second.value) ∧
      (first.xor second).value = first.value ^^^ second.value) ∧
    (∀ hash : Hash (32 * words), hash.less hash = false) ∧
    (∀ first second third : Hash (32 * words), first.less second = true →
      second.less third = true → first.less third = true) ∧
    (∀ first second : Hash (32 * words),
      first.equal second = true ↔ first.less second = false ∧ second.less first = false) ∧
    ∀ hash : Hash (32 * words),
      countLeadingZeroBitsHw scan hash.storage = 32 * words - hash.value.size ∧
      countLeadingZeroBitsSw hash.storage = 32 * words - hash.value.size ∧
      ∀ index, hash.toBitSet.getLsbD index = hash.value.testBit index := by
  have equal_value (first second : Hash (32 * words)) :
      first.equal second = true ↔ first.value = second.value := by
    rw [equal_iff, value_injective.eq_iff]
  refine ⟨fun first second => ⟨less_iff first second, equal_value first second,
    value_xor first second⟩, fun hash => ?_, fun first second third => ?_,
    fun first second => ?_, fun hash => ⟨?_, ?_, toBitSet_getLsbD hash⟩⟩
  · rw [Bool.eq_false_iff, ne_eq, less_iff]
    exact Nat.lt_irrefl _
  · rw [less_iff, less_iff, less_iff]
    exact Nat.lt_trans
  · rw [equal_value, Bool.eq_false_iff, Bool.eq_false_iff, ne_eq, ne_eq, less_iff, less_iff]
    omega
  · rw [countLeadingZeroBitsHw, countFrom_eq (countsWords_of_asSpecified specified),
      leadingZeros_digits, Nat.zero_mul, Nat.zero_add]
  · rw [countLeadingZeroBitsSw, countFrom_eq countsWords_software, leadingZeros_digits,
      Nat.zero_mul, Nat.zero_add]

/-- A count made of the logarithm. -/
def log2Clz : BitScan :=
  .builtinClz fun word => 31 - word.toNat.log2

theorem log2Clz_asSpecified : log2Clz.AsSpecified := by
  intro word nonzero
  have isNonzero : word.toNat ≠ 0 := fun isZero => nonzero (UInt32.toNat_inj.mp isZero)
  have below : word.toNat.log2 < 32 := (Nat.log2_lt isNonzero).mpr word.toNat_lt
  dsimp only
  refine ⟨by omega, ?_, ?_⟩
  · rw [show 31 - (31 - word.toNat.log2) = word.toNat.log2 by omega]
    exact Nat.log2_self_le isNonzero
  · rw [show 32 - (31 - word.toNat.log2) = word.toNat.log2 + 1 by omega]
    exact Nat.lt_log2_self

/-- A hash with its first bit in the second word. -/
def secondWordHash : Hash (32 * 2) :=
  ⟨[0, 0, 0, 0, 0x03, 0x10, 0, 0xFF], rfl⟩

theorem secondWordHash_views :
    countLeadingZeroBitsHw log2Clz secondWordHash.storage = 32 * 2 - secondWordHash.value.size ∧
      countLeadingZeroBitsSw secondWordHash.storage = 38 ∧
      secondWordHash.less secondWordHash = false := by
  have views := @views_agree 2 log2Clz log2Clz_asSpecified
  exact ⟨(views.2.2.2.2 secondWordHash).1, by decide +kernel, views.2.1 secondWordHash⟩

end Hash

end Blocxxi
