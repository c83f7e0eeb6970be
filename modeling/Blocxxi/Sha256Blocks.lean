import Blocxxi.BlockChaining
import Blocxxi.CryptoHash

/-!
# SHA-256, block by block

A block of 64 bytes is expanded to a schedule of 64 words, which change eight working
variables in as many rounds.  The schedule grows a word at a time, and the rounds are
unrolled by eight; what a block does to the state is described by the recurrence that
the words satisfy, and by one round after the other.
-/

namespace Blocxxi

namespace Nova

open Cxx BlockChaining

/-- The state between two blocks, and the working variables of the rounds. -/
@[ext]
structure Words where
  a : UInt32
  b : UInt32
  c : UInt32
  d : UInt32
  e : UInt32
  f : UInt32
  g : UInt32
  h : UInt32
  deriving DecidableEq

namespace Sha256

def kBlockSize : Nat := 64

/-- The constants of the rounds. -/
def kK : List UInt32 :=
  [
    0x428a2f98, 0x71374491, 0xb5c0fbcf, 0xe9b5dba5, 0x3956c25b, 0x59f111f1,
    0x923f82a4, 0xab1c5ed5, 0xd807aa98, 0x12835b01, 0x243185be, 0x550c7dc3,
    0x72be5d74, 0x80deb1fe, 0x9bdc06a7, 0xc19bf174, 0xe49b69c1, 0xefbe4786,
    0x0fc19dc6, 0x240ca1cc, 0x2de92c6f, 0x4a7484aa, 0x5cb0a9dc, 0x76f988da,
    0x983e5152, 0xa831c66d, 0xb00327c8, 0xbf597fc7, 0xc6e00bf3, 0xd5a79147,
    0x06ca6351, 0x14292967, 0x27b70a85, 0x2e1b2138, 0x4d2c6dfc, 0x53380d13,
    0x650a7354, 0x766a0abb, 0x81c2c92e, 0x92722c85, 0xa2bfe8a1, 0xa81a664b,
    0xc24b8b70, 0xc76c51a3, 0xd192e819, 0xd6990624, 0xf40e3585, 0x106aa070,
    0x19a4c116, 0x1e376c08, 0x2748774c, 0x34b0bcb5, 0x391c0cb3, 0x4ed8aa4a,
    0x5b9cca4f, 0x682e6ff3, 0x748f82ee, 0x78a5636f, 0x84c87814, 0x8cc70208,
    0x90befffa, 0xa4506ceb, 0xbef9a3f7, 0xc67178f2]

/-- The state in front of the first block. -/
def kInitState : Words :=
  ⟨0x6a09e667, 0xbb67ae85, 0x3c6ef372, 0xa54ff53a,
    0x510e527f, 0x9b05688c, 0x1f83d9ab, 0x5be0cd19⟩

def rotR (x n : UInt32) : UInt32 :=
  (x >>> n) ||| (x <<< (32 - n))

def ch (x y z : UInt32) : UInt32 :=
  (x &&& y) ^^^ (~~~x &&& z)

def maj (x y z : UInt32) : UInt32 :=
  (x &&& y) ^^^ (x &&& z) ^^^ (y &&& z)

/-- The functions of the rounds. -/
def roundSigma0 (x : UInt32) : UInt32 :=
  rotR x 2 ^^^ rotR x 13 ^^^ rotR x 22

def roundSigma1 (x : UInt32) : UInt32 :=
  rotR x 6 ^^^ rotR x 11 ^^^ rotR x 25

/-- The functions of the schedule. -/
def sigma0 (x : UInt32) : UInt32 :=
  rotR x 7 ^^^ rotR x 18 ^^^ (x >>> 3)

def sigma1 (x : UInt32) : UInt32 :=
  rotR x 17 ^^^ rotR x 19 ^^^ (x >>> 10)

/-- The word that the first four bytes spell. -/
def loadBE32 (bytes : ByteString) : UInt32 :=
  ((bytes.getD 0 0).toUInt32 <<< 24) ||| ((bytes.getD 1 0).toUInt32 <<< 16) |||
    ((bytes.getD 2 0).toUInt32 <<< 8) ||| (bytes.getD 3 0).toUInt32

def storeBE32 (val : UInt32) : ByteString :=
  [(val >>> 24).toUInt8, (val >>> 16).toUInt8, (val >>> 8).toUInt8, val.toUInt8]

def storeBE64 (val : UInt64) : ByteString :=
  [(val >>> 56).toUInt8, (val >>> 48).toUInt8, (val >>> 40).toUInt8,
    (val >>> 32).toUInt8, (val >>> 24).toUInt8, (val >>> 16).toUInt8,
    (val >>> 8).toUInt8, val.toUInt8]

def round (words : Words) (k w : UInt32) : Words :=
  let t1 := words.h + roundSigma1 words.e + ch words.e words.f words.g + k + w
  let t2 := roundSigma0 words.a + maj words.a words.b words.c
  ⟨t1 + t2, words.a, words.b, words.c, words.d + t1, words.e, words.f, words.g⟩

/-- One word behind those that are there. -/
def expand (w : List UInt32) : List UInt32 :=
  let i := w.length
  w ++ [sigma1 (w.getD (i - 2) 0) + w.getD (i - 7) 0 + sigma0 (w.getD (i - 15) 0) +
    w.getD (i - 16) 0]

/-- The schedule of a block. -/
def schedule (block : ByteString) : List UInt32 :=
  expand^[48] ((List.range 16).map fun i => loadBE32 (block.drop (i * 4)))

def roundAt (w : List UInt32) (words : Words) (i : Nat) : Words :=
  round words (kK.getD i 0) (w.getD i 0)

/-- The body of the loop over the rounds, which is unrolled. -/
def eightRounds (w : List UInt32) (words : Words) (i : Nat) : Words :=
  let words := roundAt w words (i + 0)
  let words := roundAt w words (i + 1)
  let words := roundAt w words (i + 2)
  let words := roundAt w words (i + 3)
  let words := roundAt w words (i + 4)
  let words := roundAt w words (i + 5)
  let words := roundAt w words (i + 6)
  roundAt w words (i + 7)

/-- The words of one state are added to those of another. -/
def add (state words : Words) : Words :=
  ⟨state.a + words.a, state.b + words.b, state.c + words.c, state.d + words.d,
    state.e + words.e, state.f + words.f, state.g + words.g, state.h + words.h⟩

/-- What one block does to the state. -/
def compress (state : Words) (block : ByteString) : Words :=
  let w := schedule block
  add state ((List.range 8).foldl (fun words turn => eightRounds w words (turn * 8)) state)

def processBlocksSoftware (data : ByteString) (blockCount : Nat) (state : Words) : Words :=
  (List.range blockCount).foldl
    (fun state blk => compress state ((data.drop (blk * kBlockSize)).take kBlockSize)) state

/-- The words of the schedule over the first ones. -/
def scheduleWord (first : Nat → UInt32) : Nat → UInt32
  | index + 16 =>
      sigma1 (scheduleWord first (index + 14)) + scheduleWord first (index + 9) +
        sigma0 (scheduleWord first (index + 1)) + scheduleWord first index
  | index => first index

/-- A word of a block, as it is loaded. -/
def blockWord (block : ByteString) (index : Nat) : UInt32 :=
  loadBE32 (block.drop (index * 4))

theorem scheduleWord_lt (first : Nat → UInt32) {index : Nat} (loaded : index < 16) :
    scheduleWord first index = first index := by
  rw [scheduleWord.eq_def]
  split
  · omega
  · rfl

theorem scheduleWord_add (first : Nat → UInt32) (index : Nat) :
    scheduleWord first (index + 16) =
      sigma1 (scheduleWord first (index + 14)) + scheduleWord first (index + 9) +
        sigma0 (scheduleWord first (index + 1)) + scheduleWord first index :=
  rfl

/-- Expanding a schedule appends the next word of the recurrence. -/
theorem expand_range (first : Nat → UInt32) {count : Nat} (loaded : 16 ≤ count) :
    expand ((List.range count).map (scheduleWord first)) =
      (List.range (count + 1)).map (scheduleWord first) := by
  obtain ⟨index, rfl⟩ := Nat.exists_eq_add_of_le' loaded
  have at_ {place : Nat} (inside : place < index + 16) :
      ((List.range (index + 16)).map (scheduleWord first)).getD place 0 =
        scheduleWord first place := by
    simp [List.getD_eq_getElem?_getD, inside]
  have next : (List.range (index + 16 + 1)).map (scheduleWord first) =
      (List.range (index + 16)).map (scheduleWord first) ++
        [scheduleWord first (index + 16)] := by
    rw [List.range_succ, List.map_append, List.map_singleton]
  rw [next, scheduleWord_add, expand, List.length_map, List.length_range,
    at_ (by omega), at_ (by omega), at_ (by omega), at_ (by omega)]
  rfl

theorem expand_iterate (first : Nat → UInt32) (more : Nat) :
    expand^[more] ((List.range 16).map (scheduleWord first)) =
      (List.range (16 + more)).map (scheduleWord first) := by
  induction more with
  | zero => rfl
  | succ more ih =>
      rw [Function.iterate_succ_apply', ih, expand_range first (by omega)]
      rfl

theorem schedule_eq (block : ByteString) :
    schedule block = (List.range 64).map (scheduleWord (blockWord block)) := by
  have loadedWords : ((List.range 16).map fun i => loadBE32 (block.drop (i * 4))) =
      (List.range 16).map (scheduleWord (blockWord block)) := by
    apply List.map_congr_left
    intro index loaded
    exact (scheduleWord_lt (blockWord block) (List.mem_range.mp loaded)).symm
  rw [schedule, loadedWords, expand_iterate]

/-- A round of a schedule. -/
def nextRound (w : Nat → UInt32) (words : Words) (index : Nat) : Words :=
  round words (kK.getD index 0) (w index)

/-- The rounds up to an index. -/
def rounds (w : Nat → UInt32) (words : Words) (count : Nat) : Words :=
  (List.range count).foldl (nextRound w) words

theorem rounds_succ (w : Nat → UInt32) (words : Words) (count : Nat) :
    rounds w words (count + 1) = nextRound w (rounds w words count) count := by
  rw [rounds, List.range_succ, List.foldl_append]
  rfl

theorem eightRounds_eq {w : List UInt32} {word : Nat → UInt32} {start : Nat}
    (agrees : ∀ index, start ≤ index → index < start + 8 → w.getD index 0 = word index)
    (words : Words) :
    eightRounds w (rounds word words start) start = rounds word words (start + 8) := by
  have roundAt_eq (words : Words) {index : Nat} (from_ : start ≤ index)
      (before : index < start + 8) : roundAt w words index = nextRound word words index := by
    rw [roundAt, agrees index from_ before, nextRound]
  simp only [eightRounds, rounds_succ]
  rw [roundAt_eq _ (by omega) (by omega), roundAt_eq _ (by omega) (by omega),
    roundAt_eq _ (by omega) (by omega), roundAt_eq _ (by omega) (by omega),
    roundAt_eq _ (by omega) (by omega), roundAt_eq _ (by omega) (by omega),
    roundAt_eq _ (by omega) (by omega), roundAt_eq _ (by omega) (by omega)]
  rfl

/-- The turns of the unrolled loop are rounds in their order. -/
theorem turns_eq {w : List UInt32} {word : Nat → UInt32} {turns : Nat}
    (agrees : ∀ index < turns * 8, w.getD index 0 = word index) (words : Words) :
    (List.range turns).foldl (fun words turn => eightRounds w words (turn * 8)) words =
      rounds word words (turns * 8) := by
  induction turns with
  | zero => rfl
  | succ turns ih =>
      have before := ih fun index inside => agrees index (by omega)
      rw [List.range_succ, List.foldl_append, before, List.foldl_cons, List.foldl_nil,
        eightRounds_eq (fun index _ inside => agrees index (by omega)), Nat.succ_mul]

theorem compress_eq (state : Words) (block : ByteString) :
    compress state block =
      add state (rounds (scheduleWord (blockWord block)) state 64) := by
  have agrees : ∀ index < 8 * 8, (schedule block).getD index 0 =
      scheduleWord (blockWord block) index := by
    intro index inside
    rw [schedule_eq]
    simp [List.getD_eq_getElem?_getD, inside]
  rw [compress, turns_eq agrees]

/-- The blocks that are there change the state one after the other. -/
theorem processBlocksSoftware_eq (data : ByteString) (state : Words) :
    processBlocksSoftware data (data.length / kBlockSize) state =
      (wholeBlocks kBlockSize data).foldl compress state := by
  rw [wholeBlocks, List.foldl_map]
  rfl

end Sha256

end Nova

end Blocxxi
