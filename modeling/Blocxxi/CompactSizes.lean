import Blocxxi.HeadersPayload

/-!
# Counts of variable width

A count is written in one, three, five or nine bytes; the first byte says which.
It is read by a loop that shifts each byte to its place and joins it to what was
read before.  The loop computes the number that the other readers of the format
are described by, so what is proved of one holds of both.
-/

namespace Blocxxi

namespace Bitcoin

open Cxx ByteText CursorReader CursorReader.Reader ListParts

section Loop

variable (payload : Span UInt8) (offset : Nat)

/-- One more byte at its place. -/
def joinByte (value : UInt64) (index : Nat) : UInt64 :=
  value ||| ((byteAt payload (sizeAdd offset index)).toUInt64 <<<
    UInt64.ofNat (index * 8))

/-- `ReadCompactSize`: the count, unless the payload ends before it does, and the
offset afterwards. -/
def readCompactSizeAt : Option UInt64 × Nat :=
  if payload.size ≤ offset then (none, offset)
  else
    let first := byteAt payload offset
    let offset := sizeAdd offset 1
    if first < 253 then (some first.toUInt64, offset)
    else
      let width := compactWidth first
      if payload.size < sizeAdd offset width then (none, offset)
      else
        (some ((List.range width).foldl (joinByte payload offset) 0),
          sizeAdd offset width)

end Loop

section Reading

variable {payload : Span UInt8} {offset width : Nat}

theorem bytesAt_succ (inside : offset + width < payload.size) :
    bytesAt payload offset (width + 1) =
      bytesAt payload offset width ++ [byteAt payload (offset + width)] := by
  have within : offset + width < payload.items.length := inside
  rw [bytesAt, List.take_add_one, List.getElem?_drop, bytesAt, byteAt,
    List.getElem?_eq_getElem within, List.getD_eq_getElem _ _ within]
  rfl

theorem bytesAt_length (inside : offset + width ≤ payload.size) :
    (bytesAt payload offset width).length = width := by
  have within : offset + width ≤ payload.items.length := inside
  rw [bytesAt, List.length_take, List.length_drop]
  omega

/-- A byte that is shifted behind a smaller number is added to it. -/
theorem joinedByte_toNat {value : UInt64} {index : Nat} (small : index < 8)
    (bounded : value.toNat < 256 ^ index) (byte : UInt8) :
    (value ||| (byte.toUInt64 <<< UInt64.ofNat (index * 8))).toNat =
      value.toNat + 256 ^ index * byte.toNat := by
  have power : 256 ^ index = 2 ^ (index * 8) := by
    rw [Nat.mul_comm, Nat.pow_mul]
  have place : index * 8 % 2 ^ 64 % 64 = index * 8 := by omega
  have scale : 2 ^ (index * 8) ≤ 2 ^ 56 := Nat.pow_le_pow_right (by decide) (by omega)
  have byteLt := byte.toNat_lt
  have fits : byte.toNat * 2 ^ (index * 8) < 2 ^ 64 := by
    calc
      byte.toNat * 2 ^ (index * 8) ≤ byte.toNat * 2 ^ 56 :=
        Nat.mul_le_mul_left _ scale
      _ < 2 ^ 64 := by omega
  rw [power] at bounded ⊢
  rw [UInt64.toNat_or, UInt64.toNat_shiftLeft, UInt64.toNat_ofNat', place,
    UInt8.toNat_toUInt64, Nat.shiftLeft_eq, Nat.mod_eq_of_lt fits, Nat.or_comm,
    Nat.mul_comm byte.toNat, ← Nat.two_pow_add_eq_or_of_lt bounded, Nat.add_comm]

/-- The loop computes the number of the bytes that it has passed. -/
theorem joinedBytes_toNat (inside : offset + width ≤ payload.size)
    (narrow : width ≤ 8) :
    ((List.range width).foldl (joinByte payload offset) 0).toNat =
      littleEndian (bytesAt payload offset width) := by
  induction width with
  | zero => rfl
  | succ width induction =>
      have sizeFits := payload.size_lt
      have passed := induction (by omega) (by omega)
      have bounded := littleEndian_lt (bytesAt payload offset width)
      rw [bytesAt_length (by omega)] at bounded
      have sum : sizeAdd offset width = offset + width := sizeAdd_of_lt (by omega)
      rw [List.range_succ, List.foldl_append, List.foldl_cons, List.foldl_nil, joinByte,
        joinedByte_toNat (by omega) (by rw [passed]; exact bounded), passed, sum,
        bytesAt_succ (by omega), littleEndian_append, bytesAt_length (by omega)]
      rfl

/-- The reader of the format, run on the machine, branch by branch. -/
theorem compactSizeAt_run (payload : Span UInt8) (offset : Nat) :
    compactSizeAt payload offset =
      if payload.size ≤ offset then (none, offset)
      else if byteAt payload offset < 253 then
        (some (byteAt payload offset).toUInt64, sizeAdd offset 1)
      else if payload.size <
          sizeAdd (sizeAdd offset 1) (compactWidth (byteAt payload offset)) then
        (none, sizeAdd offset 1)
      else
        (some (UInt64.ofNat (littleEndian (bytesAt payload (sizeAdd offset 1)
            (compactWidth (byteAt payload offset))))),
          sizeAdd (sizeAdd offset 1) (compactWidth (byteAt payload offset))) := by
  unfold compactSizeAt
  by_cases ended : payload.size ≤ offset
  · simp only [readCompactSize, wrapping, run_bind, position, continueWith, if_pos ended,
      run_pure]
  by_cases single : byteAt payload offset < 253
  · simp only [readCompactSize, wrapping, run_bind, position, continueWith, if_neg ended,
      step, if_pos single, run_pure]
  by_cases short : payload.size <
      sizeAdd (sizeAdd offset 1) (compactWidth (byteAt payload offset))
  · simp only [readCompactSize, readLittleEndian, advance, wrapping, run_bind, position,
      continueWith, if_neg ended, step, Reader.ask, if_neg single, if_pos short, run_pure]
    rfl
  · simp only [readCompactSize, readLittleEndian, advance, wrapping, run_bind, position,
      continueWith, if_neg ended, step, Reader.ask, if_neg single, if_neg short, run_pure]
    rfl

/-- The loop reads what the format means. -/
theorem readCompactSizeAt_eq (payload : Span UInt8) (offset : Nat) :
    readCompactSizeAt payload offset = compactSizeAt payload offset := by
  have sizeFits := payload.size_lt
  have narrow := compactWidth_le (byteAt payload offset)
  rw [compactSizeAt_run]
  unfold readCompactSizeAt
  dsimp only
  split_ifs with ended single short
  · rfl
  · rfl
  · rfl
  · have behind : sizeAdd offset 1 = offset + 1 := sizeAdd_of_lt (by omega)
    have sum : sizeAdd (offset + 1) (compactWidth (byteAt payload offset)) =
        offset + 1 + compactWidth (byteAt payload offset) := sizeAdd_of_lt (by omega)
    rw [behind, sum] at short
    have joined := joinedBytes_toNat (Nat.not_lt.mp short) narrow
    rw [behind, ← joined, UInt64.ofNat_toNat]

/-- The first byte of a written count tells how many bytes follow it. -/
theorem compactSizeBytes_shape (value : UInt64) :
    ∃ first rest, compactSizeBytes value = first :: rest ∧
      (rest = [] ∨ ¬ first < 253 ∧ rest.length = compactWidth first) := by
  unfold compactSizeBytes
  split_ifs
  · exact ⟨_, [], rfl, .inl rfl⟩
  · exact ⟨_, _, rfl, .inr ⟨by decide, littleEndianBytes_length value 2⟩⟩
  · exact ⟨_, _, rfl, .inr ⟨by decide, littleEndianBytes_length value 4⟩⟩
  · exact ⟨_, _, rfl, .inr ⟨by decide, littleEndianBytes_length value 8⟩⟩

/-- Where a count is cut off by the end of the payload, none is read. -/
theorem readCompactSizeAt_cut {value : UInt64} {before written : ByteString}
    (isItems : payload.items = before ++ written)
    (isStart : written <+: compactSizeBytes value)
    (cut : written ≠ compactSizeBytes value) :
    (readCompactSizeAt payload before.length).1 = none := by
  have sizeFits := payload.size_lt
  have isSize : payload.size = before.length + written.length := by
    rw [Span.size, isItems, List.length_append]
  have shorter : written.length < (compactSizeBytes value).length :=
    lt_of_le_of_ne isStart.length_le fun same => cut (isStart.eq_of_length same)
  unfold readCompactSizeAt
  dsimp only
  cases written with
  | nil =>
      have ended : payload.size ≤ before.length := Nat.le_of_eq isSize
      rw [if_pos ended]
  | cons byte others =>
      obtain ⟨first, rest, isBytes, shape⟩ := compactSizeBytes_shape value
      rw [isBytes] at isStart shorter
      obtain ⟨rfl, -⟩ := List.cons_prefix_cons.mp isStart
      rw [List.length_cons, List.length_cons] at shorter
      rcases shape with rfl | ⟨marker, width⟩
      · exact absurd (Nat.lt_of_succ_lt_succ shorter) (Nat.not_lt_zero _)
      have isFirst : byteAt payload before.length = byte := by
        rw [byteAt, isItems, List.getD_append_right _ _ _ _ (Nat.le_refl _),
          Nat.sub_self, List.getD_cons_zero]
      have narrow := compactWidth_le byte
      have behind : sizeAdd before.length 1 = before.length + 1 :=
        sizeAdd_of_lt (by omega)
      have sum : sizeAdd (before.length + 1) (compactWidth byte) =
          before.length + 1 + compactWidth byte := sizeAdd_of_lt (by omega)
      have short : payload.size < before.length + 1 + compactWidth byte := by
        rw [isSize, List.length_cons, ← width]
        omega
      rw [List.length_cons] at isSize
      rw [isFirst, behind, sum, if_neg (by omega), if_neg marker, if_pos short]

/-- The offset moves forward, and no further than the end. -/
theorem readCompactSizeAt_inside (inside : offset ≤ payload.size) :
    offset ≤ (readCompactSizeAt payload offset).2 ∧
      (readCompactSizeAt payload offset).2 ≤ payload.size := by
  have sizeFits := payload.size_lt
  have narrow := compactWidth_le (byteAt payload offset)
  unfold readCompactSizeAt
  dsimp only
  split_ifs with ended single short
  · exact ⟨Nat.le_refl offset, inside⟩
  · rw [sizeAdd_of_lt (by omega)]
    omega
  · rw [sizeAdd_of_lt (by omega)]
    omega
  · have behind : sizeAdd offset 1 = offset + 1 := sizeAdd_of_lt (by omega)
    rw [behind, sizeAdd_of_lt (by omega)] at short ⊢
    omega

end Reading

/-- A written count is read again wherever it stands, none is read where one is cut
off, and the offset never leaves the payload. -/
theorem compactSizes_codec (payload : Span UInt8) :
    (∀ (value : UInt64) (before after : ByteString),
      payload.items = before ++ compactSizeBytes value ++ after →
        readCompactSizeAt payload before.length =
          (some value, before.length + (compactSizeBytes value).length)) ∧
    (∀ (value : UInt64) (before written : ByteString),
      payload.items = before ++ written → written <+: compactSizeBytes value →
        written ≠ compactSizeBytes value →
          (readCompactSizeAt payload before.length).1 = none) ∧
    ∀ offset ≤ payload.size,
      offset ≤ (readCompactSizeAt payload offset).2 ∧
        (readCompactSizeAt payload offset).2 ≤ payload.size := by
  refine ⟨fun value before after isItems => ?_,
    fun value before written => readCompactSizeAt_cut,
    fun offset => readCompactSizeAt_inside⟩
  have stands : PartAt payload.items before.length (compactSizeBytes value) := by
    rw [isItems]
    exact partAt_middle before (compactSizeBytes value) after
  rw [readCompactSizeAt_eq, compactSizeAt_part stands]

/-- The number 253 behind one byte, and the same without its last byte. -/
theorem compactSizes_codec_wide :
    readCompactSizeAt ⟨[7, 0xFD, 253, 0], by decide⟩ 1 = (some 253, 4) ∧
      (readCompactSizeAt ⟨[7, 0xFD, 253], by decide⟩ 1).1 = none :=
  ⟨(compactSizes_codec ⟨[7, 0xFD, 253, 0], by decide⟩).1 253 [7] [] (by decide),
    (compactSizes_codec ⟨[7, 0xFD, 253], by decide⟩).2.1 253 [7] [0xFD, 253]
      (by decide) (by decide) (by decide)⟩

end Bitcoin

end Blocxxi
