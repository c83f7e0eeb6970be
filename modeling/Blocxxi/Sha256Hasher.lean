import Blocxxi.Sha256Shani

/-!
# The SHA-256 hasher

A hasher takes a message in pieces of any length.  It works off the blocks that are
filled and keeps the bytes behind them, so that its state only depends on the message
so far, and not on how it was cut.  Finishing pads the message, hands over the digest
and leaves the hasher as it was built.
-/

namespace Blocxxi

namespace Nova

open Cxx BlockChaining

namespace Sha256

structure Hasher where
  totalBytes : UInt64 := 0
  buffer : ByteString := List.replicate kBlockSize 0
  bufferSize : Nat := 0
  state : Words := kInitState
  deriving DecidableEq

/-- Memory after bytes were copied to an offset. -/
def copyInto (memory : ByteString) (offset : Nat) (bytes : ByteString) : ByteString :=
  memory.take offset ++ bytes ++ memory.drop (offset + bytes.length)

/-- `ProcessBlocks_`, on a processor with the instructions or without them. -/
def processBlocks (hasShaNi : Bool) (data : ByteString) (blockCount : Nat)
    (state : Words) : Words :=
  if hasShaNi then processBlocksShaNi data blockCount state
  else processBlocksSoftware data blockCount state

/-- The digest that is written out of a state. -/
def digestOf (state : Words) : Hash256 where
  bytes := (stateWords state).flatMap storeBE32
  size_eq := by simp [stateWords, storeBE32]

namespace Hasher

variable (hasShaNi : Bool)

/-- A block that was begun is completed as far as the data goes. -/
def fillBuffer (hasher : Hasher) (data : ByteString) : Hasher × ByteString :=
  if hasher.bufferSize ≠ 0 then
    let need := kBlockSize - hasher.bufferSize
    let take := min need data.length
    let hasher := { hasher with
      buffer := copyInto hasher.buffer hasher.bufferSize (data.take take)
      bufferSize := hasher.bufferSize + take }
    if hasher.bufferSize = kBlockSize then
      ({ hasher with
          state := processBlocks hasShaNi hasher.buffer 1 hasher.state
          bufferSize := 0 }, data.drop take)
    else (hasher, data.drop take)
  else (hasher, data)

/-- The blocks that the data fills are worked off where they are. -/
def processWhole (hasher : Hasher) (data : ByteString) : Hasher × ByteString :=
  if kBlockSize ≤ data.length then
    let blocks := data.length / kBlockSize
    ({ hasher with state := processBlocks hasShaNi data blocks hasher.state },
      data.drop (blocks * kBlockSize))
  else (hasher, data)

/-- What is left over is kept. -/
def bufferRest (hasher : Hasher) (data : ByteString) : Hasher :=
  if data.length ≠ 0 then
    { hasher with
      buffer := copyInto hasher.buffer 0 data
      bufferSize := data.length }
  else hasher

def update (hasher : Hasher) (data : ByteString) : Hasher :=
  if data.isEmpty then hasher
  else
    let hasher := { hasher with totalBytes := hasher.totalBytes + UInt64.ofNat data.length }
    let filled := hasher.fillBuffer hasShaNi data
    let processed := filled.1.processWhole hasShaNi filled.2
    processed.1.bufferRest processed.2

/-- The byte that ends the message; where the length does not fit behind it, zeros up
to the end of the block. -/
def endMessage (hasher : Hasher) : Hasher :=
  let hasher := { hasher with
    buffer := copyInto hasher.buffer hasher.bufferSize [0x80]
    bufferSize := hasher.bufferSize + 1 }
  if 56 < hasher.bufferSize then
    let buffer := copyInto hasher.buffer hasher.bufferSize
      (List.replicate (kBlockSize - hasher.bufferSize) 0)
    { hasher with
      buffer := buffer
      state := processBlocks hasShaNi buffer 1 hasher.state
      bufferSize := 0 }
  else hasher

/-- The digest, and the hasher as it is left. -/
def finalize (hasher : Hasher) : Hash256 × Hasher :=
  let totalBits := hasher.totalBytes * 8
  let hasher := hasher.endMessage hasShaNi
  let buffer := copyInto hasher.buffer hasher.bufferSize
    (List.replicate (56 - hasher.bufferSize) 0)
  let buffer := copyInto buffer 56 (storeBE64 totalBits)
  let state := processBlocks hasShaNi buffer 1 hasher.state
  (digestOf state,
    { totalBytes := 0, buffer := buffer, bufferSize := 0, state := kInitState })

end Hasher

def computeSha256 (hasShaNi : Bool) (data : ByteString) : Hash256 :=
  ((({} : Hasher).update hasShaNi data).finalize hasShaNi).1

/-- A file, with the bytes that can be read of it until it ends or reading fails. -/
structure InputFile where
  path : String
  opens : Bool
  content : ByteString
  fails : Bool

def kBufferSize : Nat := 256 * 1024

/-- The loop over the file.  A read that does not fill the buffer is the last one. -/
def readFile (hasShaNi fails : Bool) (hasher : Hasher) (content : ByteString) :
    Option Hasher :=
  let got := content.take kBufferSize
  let hasher := if 0 < got.length then hasher.update hasShaNi got else hasher
  if _filled : got.length = kBufferSize then
    readFile hasShaNi fails hasher (content.drop kBufferSize)
  else if fails then none
  else some hasher
termination_by content.length
decreasing_by
  rw [List.length_drop]
  have inside : kBufferSize ≤ content.length := by
    rw [← _filled]
    exact List.length_take_le' _ _
  have positive : 0 < kBufferSize := by decide
  omega

def computeFileSha256 (hasShaNi : Bool) (file : InputFile) : Except String Hash256 :=
  if file.opens then
    match readFile hasShaNi file.fails {} file.content with
    | some hasher => .ok (hasher.finalize hasShaNi).1
    | none => .error ("Failed while reading file for SHA-256: " ++ file.path)
  else .error ("Failed to open file for SHA-256: " ++ file.path)

/-- The zeros between the end of a message and its length. -/
def zeroCount (length : Nat) : Nat :=
  (119 - length % kBlockSize) % kBlockSize

/-- What is put behind a message: a byte that ends it, zeros, and its length in bits. -/
def padding (length : Nat) : ByteString :=
  0x80 :: (List.replicate (zeroCount length) 0 ++ storeBE64 (UInt64.ofNat length * 8))

def padded (message : ByteString) : List ByteString :=
  wholeBlocks kBlockSize (message ++ padding message.length)

/-- The state behind the whole blocks of a message. -/
def chained (message : ByteString) : Words :=
  (wholeBlocks kBlockSize message).foldl compress kInitState

/-- The digest of a message. -/
def sha256 (message : ByteString) : Hash256 :=
  digestOf ((padded message).foldl compress kInitState)

/-- A block as the standard has it: the recurrence of the schedule, and 64 rounds. -/
def standardBlock (state : Words) (block : ByteString) : Words :=
  add state (rounds (scheduleWord (blockWord block)) state 64)

theorem processBlocks_eq (hasShaNi : Bool) (data : ByteString) (blockCount : Nat)
    (state : Words) :
    processBlocks hasShaNi data blockCount state =
      processBlocksSoftware data blockCount state := by
  cases hasShaNi with
  | false => rfl
  | true => exact processBlocksShaNi_eq_software data blockCount state

theorem processBlocks_whole (hasShaNi : Bool) (data : ByteString) (state : Words) :
    processBlocks hasShaNi data (data.length / kBlockSize) state =
      (wholeBlocks kBlockSize data).foldl compress state := by
  rw [processBlocks_eq, processBlocksSoftware_eq]

theorem processBlocks_single (hasShaNi : Bool) {block : ByteString}
    (full : block.length = kBlockSize) (state : Words) :
    processBlocks hasShaNi block 1 state = compress state block := by
  have nonempty : block ≠ [] := List.ne_nil_of_length_pos (by rw [full]; decide)
  have one : block.length / kBlockSize = 1 := by
    rw [full]
    rfl
  rw [← one, processBlocks_whole, wholeBlocks_single nonempty full]
  rfl

section Memory

variable {memory bytes : ByteString} {offset : Nat}

theorem copyInto_length (inside : offset + bytes.length ≤ memory.length) :
    (copyInto memory offset bytes).length = memory.length := by
  simp only [copyInto, List.length_append, List.length_take, List.length_drop]
  omega

/-- The bytes stand behind those in front of the offset. -/
theorem take_copyInto (inside : offset + bytes.length ≤ memory.length) :
    (copyInto memory offset bytes).take (offset + bytes.length) =
      memory.take offset ++ bytes := by
  have front : (memory.take offset ++ bytes).length = offset + bytes.length := by
    rw [List.length_append, List.length_take]
    omega
  rw [copyInto, ← front, List.take_left]

/-- Bytes that reach the end of the memory are its last ones. -/
theorem copyInto_end (inside : offset + bytes.length = memory.length) :
    copyInto memory offset bytes = memory.take offset ++ bytes := by
  rw [copyInto, inside, List.drop_length, List.append_nil]

end Memory

/-- The state behind the whole blocks of a message, and the bytes behind them. -/
structure Buffers (hasher : Hasher) (message : ByteString) : Prop where
  state : hasher.state = chained message
  buffered : hasher.buffer.take hasher.bufferSize = residue kBlockSize message
  bufferSize : hasher.bufferSize = message.length % kBlockSize
  capacity : hasher.buffer.length = kBlockSize

/-- The hasher was given the message since it was built or finished. -/
structure Represents (hasher : Hasher) (message : ByteString) : Prop
    extends Buffers hasher message where
  total : hasher.totalBytes = UInt64.ofNat message.length

theorem represents_new : Represents {} [] where
  state := rfl
  buffered := rfl
  bufferSize := rfl
  capacity := rfl
  total := rfl

theorem chained_append (message more : ByteString) :
    chained (message ++ more) =
      (wholeBlocks kBlockSize (residue kBlockSize message ++ more)).foldl compress
        (chained message) := by
  rw [chained, wholeBlocks_append_residue, List.foldl_append]
  rfl

namespace Buffers

variable {hasher : Hasher} {message : ByteString}

theorem room (buffers : Buffers hasher message) : hasher.bufferSize < kBlockSize := by
  rw [buffers.bufferSize]
  exact Nat.mod_lt _ (by decide)

theorem residue_length (buffers : Buffers hasher message) :
    (residue kBlockSize message).length = hasher.bufferSize := by
  rw [BlockChaining.residue_length, buffers.bufferSize]

theorem residue_nil (buffers : Buffers hasher message) (none : hasher.bufferSize = 0) :
    residue kBlockSize message = [] :=
  List.eq_nil_of_length_eq_zero (buffers.residue_length.trans none)

/-- Bytes that do not fill the block are kept behind those that are there. -/
theorem copied (buffers : Buffers hasher message) {data : ByteString}
    (fits : hasher.bufferSize + data.length < kBlockSize) :
    Buffers { hasher with
      buffer := copyInto hasher.buffer hasher.bufferSize data
      bufferSize := hasher.bufferSize + data.length } (message ++ data) := by
  have inside : hasher.bufferSize + data.length ≤ hasher.buffer.length := by
    rw [buffers.capacity]
    exact Nat.le_of_lt fits
  have few : (residue kBlockSize message ++ data).length < kBlockSize := by
    rw [List.length_append, buffers.residue_length]
    exact fits
  constructor
  · rw [chained_append, wholeBlocks_of_lt few]
    exact buffers.state
  · rw [take_copyInto inside, buffers.buffered, residue_append_residue,
      residue_of_lt few]
  · rw [List.length_append, Nat.add_mod, ← buffers.bufferSize]
    have small : data.length < kBlockSize := by omega
    rw [Nat.mod_eq_of_lt small, Nat.mod_eq_of_lt fits]
  · exact (copyInto_length inside).trans buffers.capacity

/-- Bytes that fill the block are worked off with it. -/
theorem completed (buffers : Buffers hasher message) (hasShaNi : Bool)
    {data : ByteString} (fills : hasher.bufferSize + data.length = kBlockSize) :
    Buffers { hasher with
      buffer := copyInto hasher.buffer hasher.bufferSize data
      state := processBlocks hasShaNi (copyInto hasher.buffer hasher.bufferSize data) 1
        hasher.state
      bufferSize := 0 } (message ++ data) := by
  have inside : hasher.bufferSize + data.length = hasher.buffer.length := by
    rw [buffers.capacity]
    exact fills
  have full : (residue kBlockSize message ++ data).length = kBlockSize := by
    rw [List.length_append, buffers.residue_length]
    exact fills
  have nonempty : residue kBlockSize message ++ data ≠ [] :=
    List.ne_nil_of_length_pos (by rw [full]; decide)
  constructor
  · rw [chained_append, wholeBlocks_single nonempty full, copyInto_end inside,
      buffers.buffered, processBlocks_single hasShaNi full, buffers.state]
    rfl
  · rw [List.take_zero, residue_append_residue, residue, full]
    exact (List.drop_eq_nil_of_le (by rw [full]; decide)).symm
  · rw [List.length_append, Nat.add_mod, ← buffers.bufferSize, Nat.add_mod_mod, fills]
    rfl
  · exact (copyInto_length (Nat.le_of_eq inside)).trans buffers.capacity

end Buffers

end Sha256

end Nova

end Blocxxi
