import Blocxxi.CryptoHash
import Blocxxi.DecimalText

/-!
# Texts that were cut off

A write that is torn leaves the first bytes of a text.  Of a text of lines it
leaves some lines and a beginning of the next; of a number or a hash it leaves
the first digits.  A beginning of a number is another number, while a hash is
filled up with zeros.
-/

open Blocxxi Cxx

namespace ByteText

theorem lines_of_notMem {text : ByteString} (oneLine : 10 ∉ text) :
    lines text = if text = [] then [] else [text] := by
  have accumulated (current : ByteString) :
      linesFrom current text =
        if current ++ text = [] then [] else [current ++ text] := by
    induction text generalizing current with
    | nil => rw [linesFrom, List.append_nil]
    | cons byte text ih =>
        rw [List.mem_cons, not_or] at oneLine
        rw [linesFrom, if_neg (Ne.symm oneLine.1), ih oneLine.2,
          List.append_assoc, List.singleton_append]
  exact accumulated []

/-- Where a text of lines is cut: the number of the lines in front of the cut, and
the bytes that it leaves of the next line. -/
def cutAt : List ByteString → Nat → Nat × Nat
  | [], kept => (0, kept)
  | line :: rest, kept =>
      if kept ≤ line.length then (0, kept)
      else
        let behind := cutAt rest (kept - (line.length + 1))
        (behind.1 + 1, behind.2)

/-- The lines of a text that was cut off. -/
theorem lines_take_unlines {texts : List ByteString}
    (oneLine : ∀ line ∈ texts, 10 ∉ line) {kept : Nat}
    (within : kept < (unlines texts).length) :
    ∃ line, texts[(cutAt texts kept).1]? = some line ∧
      (cutAt texts kept).2 ≤ line.length ∧
      lines ((unlines texts).take kept) = texts.take (cutAt texts kept).1 ++
        if line.take (cutAt texts kept).2 = [] then []
        else [line.take (cutAt texts kept).2] := by
  induction texts generalizing kept with
  | nil => cases within
  | cons line rest ih =>
      have whole : unlines (line :: rest) = line ++ 10 :: unlines rest := by
        simp [unlines]
      have lineOne := oneLine line List.mem_cons_self
      rw [cutAt]
      split
      · rename_i inLine
        refine ⟨line, rfl, inLine, ?_⟩
        rw [whole, List.take_append_of_le_length inLine, lines_of_notMem]
        · rfl
        · exact fun member => lineOne (List.mem_of_mem_take member)
      · rename_i behind
        have split : (unlines (line :: rest)).take kept = line ++
            10 :: (unlines rest).take (kept - (line.length + 1)) := by
          obtain ⟨distance, rfl⟩ : ∃ distance, kept = line.length + (distance + 1) :=
            ⟨kept - line.length - 1, by omega⟩
          rw [whole, List.take_length_add_append, List.take_succ_cons]
          congr 3
          omega
        rw [whole, List.length_append, List.length_cons] at within
        have restWithin : kept - (line.length + 1) < (unlines rest).length := by
          omega
        obtain ⟨next, isNext, inNext, read⟩ := ih
          (fun other member => oneLine other (List.mem_cons_of_mem line member))
          restWithin
        refine ⟨next, isNext, inNext, ?_⟩
        rw [split, lines_append_newline lineOne, read, List.take_succ_cons,
          List.cons_append]

/-- Without its last newline a text of lines is cut at the end of the last line. -/
theorem cutAt_last (texts : List ByteString) (last : ByteString) :
    cutAt (texts ++ [last]) ((unlines (texts ++ [last])).length - 1) =
      (texts.length, last.length) := by
  induction texts with
  | nil => simp [unlines, cutAt]
  | cons line texts ih =>
      have whole : unlines (line :: texts ++ [last]) =
          line ++ 10 :: unlines (texts ++ [last]) := by
        simp [unlines]
      have nonempty : 0 < (unlines (texts ++ [last])).length := by
        simp [unlines]
      have behind : line.length + ((unlines (texts ++ [last])).length + 1) - 1 -
          (line.length + 1) = (unlines (texts ++ [last])).length - 1 := by
        omega
      rw [whole, List.length_append, List.length_cons, List.cons_append, cutAt,
        if_neg (by omega), behind, ih]
      rfl

/-- The digits of a number are no fewer than those of its rendering. -/
theorem decimal_length_le_of_value {digits : ByteString} {number : Nat}
    (nonempty : digits ≠ []) (allDigits : ∀ byte ∈ digits, isDigit byte = true)
    (value : digitsValue digits = number) :
    (decimal number).length ≤ digits.length := by
  rw [← value]
  exact decimal_length_le nonempty allDigits

theorem take_isDigit {number left : Nat} :
    ∀ byte ∈ (decimal number).take left, isDigit byte = true :=
  fun byte member => decimal_isDigit number byte (List.mem_of_mem_take member)

/-- A number is read back from the first digits of its text only if they are all
of it. -/
theorem stoull_take_iff (number : UInt64) (left : Nat) :
    stoull ((decimal number.toNat).take left) = .ok number ↔
      (decimal number.toNat).length ≤ left := by
  constructor
  · intro read
    simp only [stoull, splitSign_digits take_isDigit,
      takeWhile_digits take_isDigit] at read
    split at read
    · cases read
    split at read
    · cases read
    · rename_i nonempty fits
      have value : digitsValue ((decimal number.toNat).take left) =
          number.toNat := by
        rw [if_neg Bool.false_ne_true] at read
        have numbers := congrArg UInt64.toNat (Except.ok.inj read)
        rw [UInt64.toNat_ofNat'] at numbers
        omega
      have long := decimal_length_le_of_value nonempty take_isDigit value
      rw [List.length_take] at long
      omega
  · intro whole
    rw [List.take_of_length_le whole, stoull_decimal]

/-- The value of a text of digits, with the sign that was split off. -/
theorem stoll_value {text digits : ByteString} {negative : Bool} {number : Int64}
    (signed : splitSign (text.dropWhile isSpace) = (negative, digits))
    (allDigits : ∀ byte ∈ digits, isDigit byte = true)
    (read : stoll text = .ok number) :
    digits ≠ [] ∧ digitsValue digits = number.toInt.natAbs := by
  simp only [stoll, signed, takeWhile_digits allDigits] at read
  by_cases empty : digits = []
  · rw [if_pos empty] at read
    cases read
  refine ⟨empty, ?_⟩
  rw [if_neg empty] at read
  have inRange : ∀ {value : Int}, ¬(value < -2 ^ 63 ∨ 2 ^ 63 ≤ value) →
      Int64.ofInt value = number → value = number.toInt := by
    intro value within equal
    rw [← equal, Int64.toInt_ofInt_of_le (by omega) (by omega)]
  cases negative with
  | false =>
      simp only [Bool.false_eq_true, if_false] at read
      split at read
      · cases read
      · rename_i within
        have value := inRange within (Except.ok.inj read)
        omega
  | true =>
      simp only [if_true] at read
      split at read
      · cases read
      · rename_i within
        have value := inRange within (Except.ok.inj read)
        omega

theorem stoll_take_iff (number : Int64) (left : Nat) :
    stoll ((decimalInt number.toInt).take left) = .ok number ↔
      (decimalInt number.toInt).length ≤ left := by
  constructor
  · intro read
    unfold decimalInt at read ⊢
    split
    · rename_i negative
      rw [if_pos negative] at read
      cases left with
      | zero => cases read
      | succ left =>
          obtain ⟨nonempty, value⟩ := stoll_value
            (rfl : splitSign ((45 :: (decimal number.toInt.natAbs).take
              left).dropWhile isSpace) = (true, _)) take_isDigit read
          have long := decimal_length_le_of_value nonempty take_isDigit value
          rw [List.length_take] at long
          rw [List.length_cons]
          omega
    · rename_i positive
      rw [if_neg positive] at read
      obtain ⟨nonempty, value⟩ :=
        stoll_value (splitSign_digits take_isDigit) take_isDigit read
      have long := decimal_length_le_of_value nonempty take_isDigit value
      rw [List.length_take] at long
      omega
  · intro whole
    rw [List.take_of_length_le whole, stoll_decimalInt]

end ByteText

namespace Blocxxi

namespace Hex

theorem encode_take (src : ByteString) (count : Nat) :
    (encode src false true).take (2 * count) = encode (src.take count) false true := by
  unfold encode
  rw [if_neg Bool.false_ne_true, if_neg Bool.false_ne_true]
  induction count generalizing src with
  | zero => rfl
  | succ count ih =>
      cases src with
      | nil => rfl
      | cons byte src =>
          rw [Nat.mul_succ, List.flatMap_cons, List.take_succ_cons,
            List.flatMap_cons, ← ih]
          rfl

theorem encode_drop (src : ByteString) (count : Nat) :
    (encode src false true).drop (2 * count) = encode (src.drop count) false true := by
  unfold encode
  rw [if_neg Bool.false_ne_true, if_neg Bool.false_ne_true]
  induction count generalizing src with
  | zero => rfl
  | succ count ih =>
      cases src with
      | nil => rfl
      | cons byte src =>
          rw [Nat.mul_succ, List.flatMap_cons, List.drop_succ_cons, ← ih]
          rfl

/-- The digits are all zero exactly when the bytes are. -/
theorem encode_zeros_iff (src : ByteString) :
    (∀ digit ∈ encode src false true, digit = 48) ↔ ∀ byte ∈ src, byte = 0 := by
  have table : ∀ index : Fin 256,
      makeHigh alphabetLowerCase (UInt8.ofNat index.val) = 48 ∧
          makeLow alphabetLowerCase (UInt8.ofNat index.val) = 48 ↔
        UInt8.ofNat index.val = 0 := by
    decide +kernel
  have atByte (byte : UInt8) : makeHigh alphabetLowerCase byte = 48 ∧
      makeLow alphabetLowerCase byte = 48 ↔ byte = 0 := by
    have atIndex := table ⟨byte.toNat, byte.toNat_lt⟩
    rwa [UInt8.ofNat_toNat] at atIndex
  unfold encode
  rw [if_neg Bool.false_ne_true]
  induction src with
  | nil => simp
  | cons byte src ih =>
      have atHead : (∀ digit ∈ [makeHigh (alphabetFor true) byte,
          makeLow (alphabetFor true) byte], digit = 48) ↔ byte = 0 := by
        rw [← atByte byte]
        simp [alphabetFor]
      rw [List.flatMap_cons, List.forall_mem_append]
      constructor
      · rintro ⟨here, behind⟩
        exact List.forall_mem_cons.mpr ⟨atHead.mp here, ih.mp behind⟩
      · intro zeros
        obtain ⟨here, behind⟩ := List.forall_mem_cons.mp zeros
        exact ⟨atHead.mpr here, ih.mpr behind⟩

/-- The first digits are filled up to the bytes if only zeros are missing. -/
theorem decode_take_iff (src : ByteString) (left : Nat) :
    decode ((encode src false true).take left) (List.replicate src.length 0) false =
        .ok src ↔
      (encode src false true).length ≤ left ∨
        left % 2 = 0 ∧ ∀ digit ∈ (encode src false true).drop left, digit = 48 := by
  by_cases whole : (encode src false true).length ≤ left
  · rw [List.take_of_length_le whole, iff_true_intro (Or.inl whole), iff_true]
    by_cases empty : src = []
    · rw [empty]
      rfl
    · rw [decode_encode true empty (by simp)]
      simp
  rw [or_iff_right whole]
  have short : ((encode src false true).take left).length = left := by
    rw [List.length_take]
    omega
  rw [encode_length] at whole
  by_cases even : left % 2 = 0
  · obtain ⟨count, rfl⟩ : ∃ count, left = 2 * count := ⟨left / 2, by omega⟩
    have decoded : decode (encode (src.take count) false true)
        (List.replicate src.length 0) false =
          .ok (src.take count ++ List.replicate (src.drop count).length 0) := by
      by_cases empty : src.take count = []
      · have none : count = 0 := by
          rcases List.take_eq_nil_iff.mp empty with isZero | isNil
          · exact isZero
          · rw [isNil] at whole
            simp at whole
        rw [none, List.take_zero, List.drop_zero]
        rfl
      · rw [decode_encode true empty (by simp), List.length_replicate]
        congr 3
        rw [List.length_take, List.length_drop]
        omega
    rw [encode_take, encode_drop, encode_zeros_iff, decoded, and_iff_right even,
      Except.ok.injEq]
    constructor
    · intro equal
      have rest := List.append_cancel_left
        (equal.trans (List.take_append_drop count src).symm)
      rw [← rest]
      exact fun byte member => List.eq_of_mem_replicate member
    · intro zeros
      rw [← List.eq_replicate_of_mem zeros, List.take_append_drop]
  · rw [decode, if_pos (by rwa [short])]
    simp [even]

end Hex

namespace Hash

variable {bits : Nat}

/-- A hash is read back from the first digits of its text if only zeros are
missing. -/
theorem fromHex_take_iff (hash : Hash bits) (left : Nat) :
    fromHex (hash.toHex.take left) false = .ok hash ↔
      hash.toHex.length ≤ left ∨
        left % 2 = 0 ∧ ∀ digit ∈ hash.toHex.drop left, digit = 48 := by
  rw [fromHex_eq_ok_iff]
  have destination : (zero : Hash bits).bytes =
      List.replicate hash.bytes.length 0 := by
    rw [hash.size_eq]
    rfl
  rw [destination]
  exact Hex.decode_take_iff hash.bytes left

end Hash

end Blocxxi
