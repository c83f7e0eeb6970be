import Blocxxi.Sha256Hasher

/-!
# Messages that arrive in pieces

Every update adds its bytes to the message that the hasher represents, and finishing
gives the digest of that message, of which the padding fills the last block.  So the
digests of a run are those of the messages between two calls of `Finalize`, whatever
the pieces are and whatever the processor has.
-/

namespace Blocxxi

namespace Nova

open Cxx BlockChaining

namespace Sha256

section Update

variable (hasShaNi : Bool) {hasher : Hasher} {message : ByteString}

/-- A block that was begun takes the first bytes, and is finished or takes all. -/
theorem Buffers.fillBuffer (buffers : Buffers hasher message) (data : ByteString) :
    ∃ taken, data = taken ++ (hasher.fillBuffer hasShaNi data).2 ∧
      Buffers (hasher.fillBuffer hasShaNi data).1 (message ++ taken) ∧
      ((hasher.fillBuffer hasShaNi data).1.bufferSize = 0 ∨
        (hasher.fillBuffer hasShaNi data).2 = []) := by
  have room := buffers.room
  by_cases begun : hasher.bufferSize ≠ 0
  · rw [Hasher.fillBuffer, if_pos begun]
    dsimp only
    generalize isTake : min (kBlockSize - hasher.bufferSize) data.length = take
    have isLength : (data.take take).length = take := by
      rw [List.length_take]
      omega
    refine ⟨data.take take, ?_⟩
    by_cases fills : hasher.bufferSize + take = kBlockSize
    · have complete := buffers.completed hasShaNi (isLength.symm ▸ fills)
      rw [if_pos fills]
      exact ⟨(List.take_append_drop take data).symm, complete, .inl rfl⟩
    · have all : data.length ≤ take := by omega
      have fits : hasher.bufferSize + (data.take take).length < kBlockSize := by omega
      have copied := buffers.copied fits
      rw [isLength] at copied
      rw [if_neg fills]
      exact ⟨(List.take_append_drop take data).symm, copied,
        .inr (List.drop_eq_nil_of_le all)⟩
  · rw [Hasher.fillBuffer, if_neg begun]
    refine ⟨[], rfl, ?_, .inl (not_not.mp begun)⟩
    rw [List.append_nil]
    exact buffers

theorem Buffers.processWhole (buffers : Buffers hasher message)
    (none : hasher.bufferSize = 0) (data : ByteString) :
    (hasher.processWhole hasShaNi data).1.state = chained (message ++ data) ∧
      (hasher.processWhole hasShaNi data).2 = residue kBlockSize data ∧
      (hasher.processWhole hasShaNi data).1.bufferSize = 0 ∧
      (hasher.processWhole hasShaNi data).1.buffer = hasher.buffer := by
  have behind : chained (message ++ data) =
      (wholeBlocks kBlockSize data).foldl compress hasher.state := by
    rw [chained_append, buffers.residue_nil none, buffers.state, List.nil_append]
  rw [Hasher.processWhole]
  split
  · refine ⟨?_, rfl, none, rfl⟩
    rw [behind, ← processBlocks_whole hasShaNi]
  · rename_i few
    rw [behind, wholeBlocks_of_lt (Nat.lt_of_not_le few),
      residue_of_lt (Nat.lt_of_not_le few)]
    exact ⟨rfl, rfl, none, rfl⟩

/-- Without a block that was begun, the bytes behind the whole blocks are kept. -/
theorem Buffers.bufferRest (buffers : Buffers hasher message)
    (none : hasher.bufferSize = 0) (data : ByteString) :
    Buffers ((hasher.processWhole hasShaNi data).1.bufferRest
      (hasher.processWhole hasShaNi data).2) (message ++ data) := by
  obtain ⟨isState, isRest, isEmpty, isBuffer⟩ := buffers.processWhole hasShaNi none data
  have whole : kBlockSize ∣ message.length := by
    rw [Nat.dvd_iff_mod_eq_zero, ← buffers.bufferSize, none]
  have isResidue : residue kBlockSize (message ++ data) = residue kBlockSize data :=
    residue_append whole
  have isSize : (message ++ data).length % kBlockSize =
      (residue kBlockSize data).length := by
    rw [← isResidue, BlockChaining.residue_length]
  have room : (residue kBlockSize data).length ≤ hasher.buffer.length := by
    rw [buffers.capacity, ← isSize]
    exact Nat.le_of_lt (Nat.mod_lt _ (by decide))
  rw [isRest, Hasher.bufferRest]
  split
  · constructor
    · exact isState
    · have front := @take_copyInto hasher.buffer (residue kBlockSize data) 0 (by omega)
      rw [Nat.zero_add, List.take_zero, List.nil_append] at front
      rw [isResidue, isBuffer]
      exact front
    · exact isSize.symm
    · rw [isBuffer, copyInto_length (by omega)]
      exact buffers.capacity
  · rename_i nothing
    have isNil := List.eq_nil_of_length_eq_zero (not_not.mp nothing)
    constructor
    · exact isState
    · rw [isEmpty, List.take_zero, isResidue, isNil]
    · rw [isEmpty, isSize, isNil]
      rfl
    · rw [isBuffer]
      exact buffers.capacity

theorem Buffers.update (buffers : Buffers hasher message) (data : ByteString) :
    Buffers ((((hasher.fillBuffer hasShaNi data).1.processWhole hasShaNi
      (hasher.fillBuffer hasShaNi data).2).1.bufferRest
        ((hasher.fillBuffer hasShaNi data).1.processWhole hasShaNi
          (hasher.fillBuffer hasShaNi data).2).2)) (message ++ data) := by
  obtain ⟨taken, isData, filled, finished⟩ := buffers.fillBuffer hasShaNi data
  generalize hasher.fillBuffer hasShaNi data = result at isData filled finished ⊢
  rcases finished with none | nothing
  · rw [isData, ← List.append_assoc]
    exact filled.bufferRest hasShaNi none result.2
  · rw [nothing, List.append_nil] at isData
    rw [nothing, isData]
    exact filled

theorem update_totalBytes (data : ByteString) :
    (hasher.update hasShaNi data).totalBytes =
      hasher.totalBytes + UInt64.ofNat data.length := by
  by_cases empty : data.isEmpty
  · rw [Hasher.update, if_pos empty, List.isEmpty_iff.mp empty]
    exact (UInt64.add_zero _).symm
  · rw [Hasher.update, if_neg empty]
    simp only [Hasher.fillBuffer, Hasher.processWhole, Hasher.bufferRest]
    repeat' split
    all_goals rfl

/-- An update adds its bytes to the message. -/
theorem Represents.update (represents : Represents hasher message) (data : ByteString) :
    Represents (hasher.update hasShaNi data) (message ++ data) := by
  have total : (hasher.update hasShaNi data).totalBytes =
      UInt64.ofNat (message ++ data).length := by
    rw [update_totalBytes, represents.total, List.length_append, UInt64.ofNat_add]
  by_cases empty : data.isEmpty
  · rw [Hasher.update, if_pos empty, List.isEmpty_iff.mp empty, List.append_nil]
    exact represents
  · refine ⟨?_, total⟩
    rw [Hasher.update, if_neg empty]
    have counted : Buffers { hasher with
        totalBytes := hasher.totalBytes + UInt64.ofNat data.length } message :=
      ⟨represents.state, represents.buffered, represents.bufferSize, represents.capacity⟩
    exact counted.update hasShaNi data

end Update

section Finalize

variable (hasShaNi : Bool) {hasher : Hasher} {message : ByteString}

/-- Bytes that are copied behind one another are copied together. -/
theorem copyInto_copyInto {memory first second : ByteString} {offset : Nat}
    (inside : offset + first.length + second.length ≤ memory.length) :
    copyInto (copyInto memory offset first) (offset + first.length) second =
      copyInto memory offset (first ++ second) := by
  have behind : (copyInto memory offset first).drop
      (offset + first.length + second.length) =
        memory.drop (offset + first.length + second.length) := by
    have front : (memory.take offset ++ first).length = offset + first.length := by
      rw [List.length_append, List.length_take]
      omega
    rw [copyInto, ← front, ← List.drop_drop, List.drop_left, List.drop_drop]
  rw [copyInto, take_copyInto (by omega), behind, copyInto, List.length_append,
    Nat.add_assoc, List.append_assoc (memory.take offset)]

/-- The zeros that are there once the message has been ended. -/
def zerosBehind (length : Nat) : Nat :=
  if 56 < length % kBlockSize + 1 then kBlockSize - (length % kBlockSize + 1) else 0

theorem Buffers.endMessage (buffers : Buffers hasher message) :
    Buffers (hasher.endMessage hasShaNi)
        (message ++ 0x80 :: List.replicate (zerosBehind message.length) 0) ∧
      (hasher.endMessage hasShaNi).bufferSize ≤ 56 := by
  have room := buffers.room
  have capacity := buffers.capacity
  rw [zerosBehind, ← buffers.bufferSize, Hasher.endMessage]
  by_cases late : 56 < hasher.bufferSize + 1
  · rw [if_pos late]
    dsimp only
    rw [if_pos late]
    have together := @copyInto_copyInto hasher.buffer [0x80]
      (List.replicate (kBlockSize - (hasher.bufferSize + 1)) 0) hasher.bufferSize
      (by rw [List.length_singleton, List.length_replicate]; omega)
    rw [List.length_singleton] at together
    rw [together]
    refine ⟨buffers.completed hasShaNi ?_, Nat.zero_le _⟩
    simp only [List.cons_append, List.nil_append, List.length_cons, List.length_replicate]
    omega
  · rw [if_neg late]
    dsimp only
    rw [if_neg late]
    have fits : hasher.bufferSize + [(0x80 : UInt8)].length < kBlockSize := by
      rw [List.length_singleton]
      change _ < 64
      omega
    exact ⟨buffers.copied fits, by omega⟩

theorem zeroCount_eq {length size : Nat} (behind : size =
    (length + (zerosBehind length + 1)) % kBlockSize) (few : size ≤ 56) :
    zeroCount length = zerosBehind length + (56 - size) := by
  have room := Nat.mod_lt length (show 0 < kBlockSize by decide)
  rw [Nat.add_mod] at behind
  unfold zeroCount zerosBehind at *
  generalize length % kBlockSize = rest at *
  unfold kBlockSize at *
  split <;> rename_i late <;> simp only [late, if_true, if_false] at behind <;> omega

/-- Finishing works off the message and its padding. -/
theorem Represents.finalize (represents : Represents hasher message) :
    (hasher.finalize hasShaNi).1 = sha256 message ∧
      Represents (hasher.finalize hasShaNi).2 [] := by
  obtain ⟨ended, few⟩ := represents.toBuffers.endMessage hasShaNi
  have isSize := ended.bufferSize
  rw [List.length_append, List.length_cons, List.length_replicate] at isSize
  have zeros := zeroCount_eq isSize few
  have capacity : (hasher.endMessage hasShaNi).buffer.length = 64 := ended.capacity
  have total : hasher.totalBytes * 8 = UInt64.ofNat message.length * 8 := by
    rw [represents.total]
  rw [Hasher.finalize]
  dsimp only
  rw [total]
  generalize hasher.endMessage hasShaNi = last at *
  generalize isLength : storeBE64 (UInt64.ofNat message.length * 8) = length at *
  have eight : length.length = 8 := by rw [← isLength]; rfl
  have together := @copyInto_copyInto last.buffer
    (List.replicate (56 - last.bufferSize) 0) length last.bufferSize
    (by rw [List.length_replicate]; omega)
  rw [List.length_replicate, Nat.add_sub_cancel' few] at together
  rw [together]
  have fills : last.bufferSize +
      (List.replicate (56 - last.bufferSize) 0 ++ length).length = kBlockSize := by
    rw [List.length_append, List.length_replicate]
    change _ = 64
    omega
  have complete := ended.completed hasShaNi fills
  have isPadded : message ++ 0x80 :: List.replicate (zerosBehind message.length) 0 ++
      (List.replicate (56 - last.bufferSize) 0 ++ length) =
        message ++ padding message.length := by
    rw [padding, zeros, ← List.replicate_append_replicate, isLength]
    simp only [List.append_assoc, List.cons_append]
  rw [isPadded] at complete
  exact ⟨congrArg digestOf complete.state, ⟨rfl, rfl, rfl, complete.capacity⟩, rfl⟩

end Finalize

/-- What a hasher is told to do. -/
inductive Call
  | update (data : ByteString)
  | finalize
  deriving DecidableEq

/-- A call, with the digest it hands over. -/
def Hasher.call (hasShaNi : Bool) (hasher : Hasher) : Call → Hasher × List Hash256
  | .update data => (hasher.update hasShaNi data, [])
  | .finalize => ((hasher.finalize hasShaNi).2, [(hasher.finalize hasShaNi).1])

/-- The digests of a run; the processor is asked at every call. -/
def Hasher.run (hasher : Hasher) : List (Bool × Call) → List Hash256
  | [] => []
  | (hasShaNi, call) :: calls =>
      (hasher.call hasShaNi call).2 ++ (hasher.call hasShaNi call).1.run calls

/-- The messages that are finished, behind the bytes that are already there. -/
def messages (pending : ByteString) : List Call → List ByteString
  | [] => []
  | .update data :: calls => messages (pending ++ data) calls
  | .finalize :: calls => pending :: messages [] calls

theorem Represents.run {hasher : Hasher} {pending : ByteString}
    (represents : Represents hasher pending) (calls : List (Bool × Call)) :
    hasher.run calls = (messages pending (calls.map Prod.snd)).map sha256 := by
  induction calls generalizing hasher pending with
  | nil => rfl
  | cons next calls ih =>
      obtain ⟨hasShaNi, call⟩ := next
      cases call with
      | update data => exact ih (represents.update hasShaNi data)
      | finalize =>
          obtain ⟨isDigest, afresh⟩ := represents.finalize hasShaNi
          have later := ih afresh
          rw [Hasher.run, Hasher.call, later, isDigest]
          rfl

theorem computeSha256_eq (hasShaNi : Bool) (data : ByteString) :
    computeSha256 hasShaNi data = sha256 data :=
  ((represents_new.update hasShaNi data).finalize hasShaNi).1

example : (sha256 [97, 98, 99]).bytes.take 4 = [0xba, 0x78, 0x16, 0xbf] := by
  decide +kernel

theorem Represents.readFile (hasShaNi fails : Bool) {hasher : Hasher}
    {message : ByteString} (represents : Represents hasher message)
    (content : ByteString) :
    match readFile hasShaNi fails hasher content with
    | some finished => fails = false ∧ Represents finished (message ++ content)
    | none => fails = true := by
  have taken : Represents
      (if 0 < (content.take kBufferSize).length then
        hasher.update hasShaNi (content.take kBufferSize) else hasher)
      (message ++ content.take kBufferSize) := by
    split
    · exact represents.update hasShaNi _
    · rename_i nothing
      rw [List.eq_nil_of_length_eq_zero (Nat.eq_zero_of_not_pos nothing),
        List.append_nil]
      exact represents
  rw [Sha256.readFile]
  by_cases filled : (content.take kBufferSize).length = kBufferSize
  · have later := taken.readFile hasShaNi fails (content.drop kBufferSize)
    rw [List.append_assoc, List.take_append_drop] at later
    rw [dif_pos filled]
    exact later
  · have all : content.take kBufferSize = content := by
      apply List.take_of_length_le
      rw [List.length_take] at filled
      omega
    rw [all] at taken
    rw [dif_neg filled, all]
    cases fails with
    | true => rfl
    | false => exact ⟨rfl, taken⟩
termination_by content.length
decreasing_by
  rw [List.length_take] at filled
  rw [List.length_drop]
  have positive : 0 < kBufferSize := by decide
  omega

/-- The digest of a file is the one of its bytes, of however many buffers; it is only
handed over if the whole file could be read. -/
theorem computeFileSha256_eq (hasShaNi : Bool) (file : InputFile) :
    computeFileSha256 hasShaNi file =
      if file.opens then
        if file.fails then
          .error ("Failed while reading file for SHA-256: " ++ file.path)
        else .ok (computeSha256 hasShaNi file.content)
      else .error ("Failed to open file for SHA-256: " ++ file.path) := by
  rw [computeFileSha256]
  split
  · have read := represents_new.readFile hasShaNi file.fails file.content
    rw [computeSha256_eq]
    split
    · rename_i finished isFinished
      rw [isFinished] at read
      obtain ⟨whole, represents⟩ := read
      rw [whole, (represents.finalize hasShaNi).1]
      rfl
    · rename_i broken
      rw [broken] at read
      rw [if_pos read]
  · rfl

end Sha256

end Nova

end Blocxxi
