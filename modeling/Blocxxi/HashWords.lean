import Blocxxi.BigEndianBytes
import Blocxxi.BitDigits
import Blocxxi.CryptoHash

/-!
# Hashes as arrays of words

The bytes of a hash are kept in an array of 32-bit words.  On a little-endian host
the first byte of a word is its lowest, so a word is swapped before it counts as
part of a number.  The operators and bit counts go over the words.
-/

namespace Blocxxi

namespace Hash

/-- The word that a little-endian host has where four bytes stand. -/
def hostWord (first second third fourth : UInt8) : UInt32 :=
  first.toUInt32 ||| second.toUInt32 <<< 8 ||| third.toUInt32 <<< 16 |||
    fourth.toUInt32 <<< 24

/-- The four bytes where such a host has a word. -/
def wordBytes (word : UInt32) : ByteString :=
  [word.toUInt8, (word >>> 8).toUInt8, (word >>> 16).toUInt8, (word >>> 24).toUInt8]

def wordsOf : ByteString → List UInt32
  | first :: second :: third :: fourth :: rest =>
      hostWord first second third fourth :: wordsOf rest
  | _ => []

def storage {bits : Nat} (hash : Hash bits) : List UInt32 :=
  wordsOf hash.bytes

def hostToNetwork (number : UInt32) : UInt32 :=
  ((number &&& 0x000000FF) <<< 24) ||| ((number &&& 0x0000FF00) <<< 8) |||
    ((number &&& 0x00FF0000) >>> 8) ||| ((number &&& 0xFF000000) >>> 24)

def networkToHost (number : UInt32) : UInt32 :=
  hostToNetwork number

/-- The loop over the words: the bits of the words in front, and those in front of
the first bit of the first word that has one. -/
def countFrom (leadingZeros : UInt32 → Nat) : Nat → List UInt32 → Nat
  | index, [] => index * 32
  | index, word :: rest =>
      if word = 0 then countFrom leadingZeros (index + 1) rest
      else index * 32 + leadingZeros (networkToHost word)

def multiplyDeBruijnBitPosition : List Nat :=
  [0, 9, 1, 10, 13, 21, 2, 29, 11, 14, 16, 18, 22, 25, 3, 30, 8, 12, 20, 28, 15, 17,
    24, 7, 19, 27, 23, 6, 26, 5, 4, 31]

/-- The word with all bits below its highest one set. -/
def roundDown (word : UInt32) : UInt32 :=
  let word := word ||| word >>> 1
  let word := word ||| word >>> 2
  let word := word ||| word >>> 4
  let word := word ||| word >>> 8
  word ||| word >>> 16

def softwareLeadingZeros (word : UInt32) : Nat :=
  31 - multiplyDeBruijnBitPosition.getD ((roundDown word * 0x07C4ACDD) >>> 27).toNat 0

def countLeadingZeroBitsSw (buf : List UInt32) : Nat :=
  countFrom softwareLeadingZeros 0 buf

/-- What a compiler has for finding the highest bit of a word. -/
inductive BitScan
  | builtinClz (count : UInt32 → Nat)
  | bitScanReverse (position : UInt32 → Nat)

namespace BitScan

def leadingZeros : BitScan → UInt32 → Nat
  | builtinClz count, word => count word
  | bitScanReverse position, word => 31 - position word

/-- What is documented of it; of a word without bits nothing is. -/
def AsSpecified : BitScan → Prop
  | builtinClz count => ∀ word : UInt32, word ≠ 0 →
      count word < 32 ∧ 2 ^ (31 - count word) ≤ word.toNat ∧
        word.toNat < 2 ^ (32 - count word)
  | bitScanReverse position => ∀ word : UInt32, word ≠ 0 →
      2 ^ position word ≤ word.toNat ∧ word.toNat < 2 ^ (position word + 1)

end BitScan

def countLeadingZeroBitsHw (scan : BitScan) (buf : List UInt32) : Nat :=
  countFrom scan.leadingZeros 0 buf

/-- `CountLeadingZeroBits`, with what the compiler has, if anything. -/
def countLeadingZeroBits (scan : Option BitScan) (buf : List UInt32) : Nat :=
  match scan with
  | some scan => countLeadingZeroBitsHw scan buf
  | none => countLeadingZeroBitsSw buf

def leadingZeroBits {bits : Nat} (scan : Option BitScan) (hash : Hash bits) : Nat :=
  countLeadingZeroBits scan hash.storage

/-- `operator==`. -/
def equal {bits : Nat} (lhs rhs : Hash bits) : Bool :=
  (lhs.bytes.zip rhs.bytes).all fun pair => pair.1 == pair.2

def lessWords : List UInt32 → List UInt32 → Bool
  | lhs :: lhsRest, rhs :: rhsRest =>
      if networkToHost lhs < networkToHost rhs then true
      else if networkToHost rhs < networkToHost lhs then false
      else lessWords lhsRest rhsRest
  | _, _ => false

/-- `operator<`. -/
def less {bits : Nat} (lhs rhs : Hash bits) : Bool :=
  lessWords lhs.storage rhs.storage

def toBitSetFrom (bits : Nat) : List UInt32 → Nat → BitVec bits → BitVec bits
  | [], _, set => set
  | part :: rest, shiftLeft, set =>
      let shiftLeft := shiftLeft - 32
      toBitSetFrom bits rest shiftLeft
        (set ||| BitVec.ofNat bits (hostToNetwork part).toNat <<< shiftLeft)

def toBitSet {bits : Nat} (hash : Hash bits) : BitVec bits :=
  toBitSetFrom bits hash.storage bits 0

theorem shiftedByte_toNat (byte : UInt8) {places : UInt32} (small : places.toNat ≤ 24) :
    (byte.toUInt32 <<< places).toNat = 2 ^ places.toNat * byte.toNat := by
  have byteLt := byte.toNat_lt
  have scale : 2 ^ places.toNat ≤ 2 ^ 24 := Nat.pow_le_pow_right (by decide) small
  have fits : byte.toNat * 2 ^ places.toNat < 2 ^ 32 := by
    calc
      byte.toNat * 2 ^ places.toNat ≤ byte.toNat * 2 ^ 24 := Nat.mul_le_mul_left _ scale
      _ < 2 ^ 32 := by omega
  rw [UInt32.toNat_shiftLeft, Nat.mod_eq_of_lt (by omega : places.toNat < 32),
    UInt8.toNat_toUInt32, Nat.shiftLeft_eq, Nat.mod_eq_of_lt fits, Nat.mul_comm]

/-- What stands at higher places is added. -/
theorem or_eq_add {low : Nat} {places : Nat} (small : low < 2 ^ places) (high : Nat) :
    low ||| 2 ^ places * high = low + 2 ^ places * high := by
  rw [Nat.or_comm, ← Nat.two_pow_add_eq_or_of_lt small, Nat.add_comm]

theorem hostWord_toNat (first second third fourth : UInt8) :
    (hostWord first second third fourth).toNat =
      first.toNat + 2 ^ 8 * second.toNat + 2 ^ 16 * third.toNat +
        2 ^ 24 * fourth.toNat := by
  have firstLt := first.toNat_lt
  have secondLt := second.toNat_lt
  have thirdLt := third.toNat_lt
  simp only [hostWord, UInt32.toNat_or, UInt8.toNat_toUInt32]
  rw [shiftedByte_toNat second (by decide), shiftedByte_toNat third (by decide),
    shiftedByte_toNat fourth (by decide)]
  change ((first.toNat ||| 2 ^ 8 * second.toNat) ||| 2 ^ 16 * third.toNat) |||
    2 ^ 24 * fourth.toNat = _
  have two : first.toNat + 2 ^ 8 * second.toNat < 2 ^ 16 := by omega
  have three : first.toNat + 2 ^ 8 * second.toNat + 2 ^ 16 * third.toNat < 2 ^ 24 := by
    omega
  rw [or_eq_add firstLt, or_eq_add two, or_eq_add three]

theorem shiftedOut_toNat (word : UInt32) {places : UInt32} (small : places.toNat < 32) :
    (word >>> places).toUInt8.toNat = word.toNat / 2 ^ places.toNat % 2 ^ 8 := by
  rw [UInt32.toNat_toUInt8, UInt32.toNat_shiftRight, Nat.mod_eq_of_lt small,
    Nat.shiftRight_eq_div_pow]

/-- The bytes of the word are found where they were put. -/
theorem hostWord_bytes (first second third fourth : UInt8) :
    let word := (hostWord first second third fourth).toNat
    word % 2 ^ 8 = first.toNat ∧ word / 2 ^ 8 % 2 ^ 8 = second.toNat ∧
      word / 2 ^ 16 % 2 ^ 8 = third.toNat ∧ word / 2 ^ 24 % 2 ^ 8 = fourth.toNat := by
  have firstLt := first.toNat_lt
  have secondLt := second.toNat_lt
  have thirdLt := third.toNat_lt
  have fourthLt := fourth.toNat_lt
  rw [hostWord_toNat]
  dsimp only
  refine ⟨?_, ?_, ?_, ?_⟩ <;> omega

theorem wordBytes_hostWord (first second third fourth : UInt8) :
    wordBytes (hostWord first second third fourth) = [first, second, third, fourth] := by
  obtain ⟨isFirst, isSecond, isThird, isFourth⟩ :=
    hostWord_bytes first second third fourth
  have one : (hostWord first second third fourth).toUInt8 = first := by
    apply UInt8.toNat_inj.mp
    rw [UInt32.toNat_toUInt8, isFirst]
  have two : (hostWord first second third fourth >>> 8).toUInt8 = second := by
    apply UInt8.toNat_inj.mp
    rw [shiftedOut_toNat _ (by decide)]
    exact isSecond
  have three : (hostWord first second third fourth >>> 16).toUInt8 = third := by
    apply UInt8.toNat_inj.mp
    rw [shiftedOut_toNat _ (by decide)]
    exact isThird
  have four : (hostWord first second third fourth >>> 24).toUInt8 = fourth := by
    apply UInt8.toNat_inj.mp
    rw [shiftedOut_toNat _ (by decide)]
    exact isFourth
  rw [wordBytes, one, two, three, four]

/-- A mask of eight ones keeps one byte in its place. -/
theorem masked_eq (number places : Nat) :
    number &&& (0xFF <<< places) = 2 ^ places * (number / 2 ^ places % 2 ^ 8) := by
  have low : number / 2 ^ places % 2 ^ 8 = (number >>> places) &&& 0xFF := by
    rw [Nat.shiftRight_eq_div_pow]
    exact (Nat.and_two_pow_sub_one_eq_mod _ 8).symm
  rw [low, Nat.mul_comm, ← Nat.shiftLeft_eq]
  apply Nat.eq_of_testBit_eq
  intro index
  simp only [Nat.testBit_and, Nat.testBit_shiftLeft, Nat.testBit_shiftRight]
  by_cases inside : places ≤ index
  · simp [inside]
  · simp [inside]

/-- The bytes of the number in the opposite order. -/
theorem hostToNetwork_toNat (number : UInt32) :
    (hostToNetwork number).toNat =
      number.toNat / 2 ^ 24 % 2 ^ 8 + 2 ^ 8 * (number.toNat / 2 ^ 16 % 2 ^ 8) +
        2 ^ 16 * (number.toNat / 2 ^ 8 % 2 ^ 8) + 2 ^ 24 * (number.toNat % 2 ^ 8) := by
  have one : ((number &&& 0x000000FF) <<< 24).toNat = 2 ^ 24 * (number.toNat % 2 ^ 8) := by
    have masked := masked_eq number.toNat 0
    rw [UInt32.toNat_shiftLeft, UInt32.toNat_and]
    change (number.toNat &&& 0xFF <<< 0) <<< 24 % 2 ^ 32 = _
    rw [masked, Nat.shiftLeft_eq]
    omega
  have two : ((number &&& 0x0000FF00) <<< 8).toNat =
      2 ^ 16 * (number.toNat / 2 ^ 8 % 2 ^ 8) := by
    have masked := masked_eq number.toNat 8
    rw [UInt32.toNat_shiftLeft, UInt32.toNat_and]
    change (number.toNat &&& 0xFF <<< 8) <<< 8 % 2 ^ 32 = _
    rw [masked, Nat.shiftLeft_eq]
    omega
  have three : ((number &&& 0x00FF0000) >>> 8).toNat =
      2 ^ 8 * (number.toNat / 2 ^ 16 % 2 ^ 8) := by
    have masked := masked_eq number.toNat 16
    rw [UInt32.toNat_shiftRight, UInt32.toNat_and]
    change (number.toNat &&& 0xFF <<< 16) >>> 8 = _
    rw [masked, Nat.shiftRight_eq_div_pow]
    omega
  have four : ((number &&& 0xFF000000) >>> 24).toNat = number.toNat / 2 ^ 24 % 2 ^ 8 := by
    have masked := masked_eq number.toNat 24
    rw [UInt32.toNat_shiftRight, UInt32.toNat_and]
    change (number.toNat &&& 0xFF <<< 24) >>> 24 = _
    rw [masked, Nat.shiftRight_eq_div_pow]
    omega
  have lowest : number.toNat / 2 ^ 24 % 2 ^ 8 < 2 ^ 8 := Nat.mod_lt _ (by decide)
  have lower : number.toNat / 2 ^ 24 % 2 ^ 8 +
      2 ^ 8 * (number.toNat / 2 ^ 16 % 2 ^ 8) < 2 ^ 16 := by
    omega
  have low : number.toNat / 2 ^ 24 % 2 ^ 8 + 2 ^ 8 * (number.toNat / 2 ^ 16 % 2 ^ 8) +
      2 ^ 16 * (number.toNat / 2 ^ 8 % 2 ^ 8) < 2 ^ 24 := by
    omega
  rw [hostToNetwork, UInt32.toNat_or, UInt32.toNat_or, UInt32.toNat_or, one, two, three,
    four, Nat.or_comm, Nat.or_comm _ (2 ^ 8 * _), ← Nat.or_assoc, or_eq_add lowest,
    Nat.or_comm (2 ^ 24 * _), ← Nat.or_assoc, or_eq_add lower, or_eq_add low]

theorem networkToHost_hostWord (first second third fourth : UInt8) :
    (networkToHost (hostWord first second third fourth)).toNat =
      BigEndian.value [first, second, third, fourth] := by
  obtain ⟨isFirst, isSecond, isThird, isFourth⟩ :=
    hostWord_bytes first second third fourth
  rw [networkToHost, hostToNetwork_toNat, isFirst, isSecond, isThird, isFourth]
  simp only [BigEndian.value, List.foldl_cons, List.foldl_nil]
  omega

/-- The number that the bytes of a hash spell, most significant first. -/
def value {bits : Nat} (hash : Hash bits) : Nat :=
  BigEndian.value hash.bytes

/-- The words of the storage as digits of that number. -/
def digits (words : List UInt32) : List (BitVec 32) :=
  words.map fun word => (networkToHost word).toBitVec

/-- Whole words of bytes are built from the last word on. -/
theorem wholeWords_induction
    {motive : ∀ bytes : ByteString, bytes.length % 4 = 0 → Prop} (nil : motive [] rfl)
    (cons : ∀ first second third fourth rest (whole : rest.length % 4 = 0)
      (wholeNext : (first :: second :: third :: fourth :: rest).length % 4 = 0),
      motive rest whole → motive (first :: second :: third :: fourth :: rest) wholeNext)
    (bytes : ByteString) (whole : bytes.length % 4 = 0) : motive bytes whole := by
  induction bytes using wordsOf.induct with
  | case1 first second third fourth rest ih =>
      have wholeRest : rest.length % 4 = 0 := by
        simp only [List.length_cons] at whole
        omega
      exact cons first second third fourth rest wholeRest whole (ih wholeRest)
  | case2 bytes noWord =>
      rcases bytes with _ | ⟨first, _ | ⟨second, _ | ⟨third, _ | ⟨fourth, rest⟩⟩⟩⟩
      · exact nil
      · simp at whole
      · simp at whole
      · simp at whole
      · exact (noWord first second third fourth rest rfl).elim

theorem wordsOf_length {bytes : ByteString} (whole : bytes.length % 4 = 0) :
    4 * (wordsOf bytes).length = bytes.length := by
  induction bytes, whole using wholeWords_induction with
  | nil => rfl
  | cons first second third fourth rest whole wholeNext ih =>
      simp only [wordsOf, List.length_cons]
      omega

theorem number_wordsOf {bytes : ByteString} (whole : bytes.length % 4 = 0) :
    BitDigits.number (digits (wordsOf bytes)) = BigEndian.value bytes := by
  induction bytes, whole using wholeWords_induction with
  | nil => rfl
  | cons first second third fourth rest whole wholeNext ih =>
      have length := wordsOf_length whole
      have scale : 256 ^ rest.length = 2 ^ (32 * (wordsOf rest).length) := by
        rw [← length, show 256 = 2 ^ 8 from rfl, ← pow_mul]
        congr 1
        omega
      have split := BigEndian.value_append [first, second, third, fourth] rest
      rw [wordsOf, digits, List.map_cons, BitDigits.number_cons, List.length_map]
      change _ = BigEndian.value ([first, second, third, fourth] ++ rest)
      rw [split, ← networkToHost_hostWord, scale, ← ih, Nat.mul_comm (UInt32.toNat _)]
      rfl

theorem wordBytes_xor (first second : UInt32) :
    wordBytes (first ^^^ second) =
      List.zipWith (· ^^^ ·) (wordBytes first) (wordBytes second) := by
  simp [wordBytes, UInt32.shiftRight_xor]

/-- Words are joined bit by bit, and so are their bytes. -/
theorem zipWith_wordsOf {first second : ByteString} (whole : first.length % 4 = 0)
    (lengths : first.length = second.length) :
    (List.zipWith (· ^^^ ·) (wordsOf first) (wordsOf second)).flatMap wordBytes =
      List.zipWith (· ^^^ ·) first second := by
  induction first, whole using wholeWords_induction generalizing second with
  | nil => rfl
  | cons one two three four rest whole wholeNext ih =>
      rcases second with _ | ⟨one', _ | ⟨two', _ | ⟨three', _ | ⟨four', others⟩⟩⟩⟩
      · simp at lengths
      · simp at lengths
      · simp at lengths
      · simp at lengths
      · have restLengths : rest.length = others.length := by simpa using lengths
        rw [wordsOf, wordsOf, List.zipWith_cons_cons, List.flatMap_cons, ih restLengths,
          wordBytes_xor, wordBytes_hostWord, wordBytes_hostWord]
        rfl

theorem whole_bytes {words : Nat} (hash : Hash (32 * words)) :
    hash.bytes.length % 4 = 0 := by
  rw [hash.size_eq]
  omega

theorem storage_length {words : Nat} (hash : Hash (32 * words)) :
    hash.storage.length = words := by
  have length := wordsOf_length hash.whole_bytes
  rw [hash.size_eq] at length
  rw [storage]
  omega

theorem same_length {bits : Nat} (first second : Hash bits) :
    first.bytes.length = second.bytes.length := by
  rw [first.size_eq, second.size_eq]

/-- `operator^`. -/
def xor {words : Nat} (lhs rhs : Hash (32 * words)) : Hash (32 * words) where
  bytes := (List.zipWith (· ^^^ ·) lhs.storage rhs.storage).flatMap wordBytes
  size_eq := by
    rw [storage, storage, zipWith_wordsOf lhs.whole_bytes (same_length lhs rhs),
      List.length_zipWith, same_length lhs rhs, Nat.min_self, rhs.size_eq]

theorem bytes_xor {words : Nat} (first second : Hash (32 * words)) :
    (first.xor second).bytes = List.zipWith (· ^^^ ·) first.bytes second.bytes :=
  zipWith_wordsOf first.whole_bytes (same_length first second)

end Hash

end Blocxxi
