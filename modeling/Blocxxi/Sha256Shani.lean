import Blocxxi.Sha256Blocks
import Blocxxi.VectorLanes

/-!
# SHA-256 on vectors

Where the processor has instructions for it, four rounds and four words of the
schedule are computed at a time.  The state is then kept in two registers, in the
order the instructions want.  It is the state of the plain loop after every fourth
round, so both loops leave the same words.
-/

namespace Blocxxi

namespace Nova

open Cxx BlockChaining Simd
open Hash (hostWord)

namespace Sha256

/-- One of the two rounds of `_mm_sha256rnds2_epu32`. -/
def roundOf (words : Words) (wk : UInt32) : Words where
  a := ch words.e words.f words.g + roundSigma1 words.e + wk + words.h +
    maj words.a words.b words.c + roundSigma0 words.a
  b := words.a
  c := words.b
  d := words.c
  e := ch words.e words.f words.g + roundSigma1 words.e + wk + words.h + words.d
  f := words.e
  g := words.f
  h := words.g

/-- `_mm_sha256rnds2_epu32`: `a` holds the variables C, D, G and H, and `b` the others. -/
def sha256rnds2 (a b k : M128) : M128 :=
  let words : Words :=
    ⟨b.lane3, b.lane2, a.lane3, a.lane2, b.lane1, b.lane0, a.lane1, a.lane0⟩
  let words := roundOf (roundOf words k.lane0) k.lane1
  ⟨words.f, words.e, words.b, words.a⟩

/-- `_mm_sha256msg1_epu32`. -/
def sha256msg1 (a b : M128) : M128 :=
  ⟨a.lane0 + sigma0 a.lane1, a.lane1 + sigma0 a.lane2, a.lane2 + sigma0 a.lane3,
    a.lane3 + sigma0 b.lane0⟩

/-- `_mm_sha256msg2_epu32`. -/
def sha256msg2 (a b : M128) : M128 :=
  let w16 := a.lane0 + sigma1 b.lane2
  let w17 := a.lane1 + sigma1 b.lane3
  ⟨w16, w17, a.lane2 + sigma1 w16, a.lane3 + sigma1 w17⟩

def kShufMask : M128 :=
  setEpi64x 0x0c0d0e0f08090a0b 0x0405060700010203

/-- The registers of the state: `state0`, then `state1`. -/
abbrev StateRegisters := M128 × M128

/-- Four rounds, with the message words and the constants from `i` on. -/
def fourRounds (i : Nat) (message : M128) (states : StateRegisters) : StateRegisters :=
  let msg := addEpi32 message (loadWords kK i)
  let state1 := sha256rnds2 states.2 states.1 msg
  let msg := shuffleEpi32 msg 0x0E
  let state0 := sha256rnds2 states.1 state1 msg
  (state0, state1)

/-- The next message words, from those sixteen places before, which went through
`sha256msg1`, and the last eight. -/
def nextMessage (message before last : M128) : M128 :=
  let tmp := alignrEpi8 last before 4
  sha256msg2 (addEpi32 message tmp) last

/-- The body of the loop. -/
def blockShaNi (states : StateRegisters) (block : ByteString) : StateRegisters :=
  let saved := states
  let msg0 := shuffleEpi8 (loadBytes (block.drop 0)) kShufMask
  let msg1 := shuffleEpi8 (loadBytes (block.drop 16)) kShufMask
  let msg2 := shuffleEpi8 (loadBytes (block.drop 32)) kShufMask
  let msg3 := shuffleEpi8 (loadBytes (block.drop 48)) kShufMask
  let states := fourRounds 0 msg0 states
  let states := fourRounds 4 msg1 states
  let msg0 := sha256msg1 msg0 msg1
  let states := fourRounds 8 msg2 states
  let msg1 := sha256msg1 msg1 msg2
  let states := fourRounds 12 msg3 states
  let msg0 := nextMessage msg0 msg2 msg3
  let msg2 := sha256msg1 msg2 msg3
  let states := fourRounds 16 msg0 states
  let msg1 := nextMessage msg1 msg3 msg0
  let msg3 := sha256msg1 msg3 msg0
  let states := fourRounds 20 msg1 states
  let msg2 := nextMessage msg2 msg0 msg1
  let msg0 := sha256msg1 msg0 msg1
  let states := fourRounds 24 msg2 states
  let msg3 := nextMessage msg3 msg1 msg2
  let msg1 := sha256msg1 msg1 msg2
  let states := fourRounds 28 msg3 states
  let msg0 := nextMessage msg0 msg2 msg3
  let msg2 := sha256msg1 msg2 msg3
  let states := fourRounds 32 msg0 states
  let msg1 := nextMessage msg1 msg3 msg0
  let msg3 := sha256msg1 msg3 msg0
  let states := fourRounds 36 msg1 states
  let msg2 := nextMessage msg2 msg0 msg1
  let msg0 := sha256msg1 msg0 msg1
  let states := fourRounds 40 msg2 states
  let msg3 := nextMessage msg3 msg1 msg2
  let msg1 := sha256msg1 msg1 msg2
  let states := fourRounds 44 msg3 states
  let msg0 := nextMessage msg0 msg2 msg3
  let msg2 := sha256msg1 msg2 msg3
  let states := fourRounds 48 msg0 states
  let msg1 := nextMessage msg1 msg3 msg0
  let msg3 := sha256msg1 msg3 msg0
  let states := fourRounds 52 msg1 states
  let msg2 := nextMessage msg2 msg0 msg1
  let states := fourRounds 56 msg2 states
  let msg3 := nextMessage msg3 msg1 msg2
  let states := fourRounds 60 msg3 states
  (addEpi32 states.1 saved.1, addEpi32 states.2 saved.2)

/-- The state as it is in memory. -/
def stateWords (state : Words) : List UInt32 :=
  [state.a, state.b, state.c, state.d, state.e, state.f, state.g, state.h]

def loadState (state : Words) : StateRegisters :=
  let tmp0 := loadWords (stateWords state) 0
  let tmp1 := loadWords (stateWords state) 4
  let tmp0 := shuffleEpi32 tmp0 0xB1
  let tmp1 := shuffleEpi32 tmp1 0xB1
  (unpackloEpi64 tmp1 tmp0, unpackhiEpi64 tmp1 tmp0)

def storeState (states : StateRegisters) : Words :=
  let tmp0 := unpackhiEpi64 states.1 states.2
  let tmp1 := unpackloEpi64 states.1 states.2
  let tmp0 := shuffleEpi32 tmp0 0xB1
  let tmp1 := shuffleEpi32 tmp1 0xB1
  ⟨tmp0.lane0, tmp0.lane1, tmp0.lane2, tmp0.lane3,
    tmp1.lane0, tmp1.lane1, tmp1.lane2, tmp1.lane3⟩

def processBlocksShaNi (data : ByteString) (blockCount : Nat) (state : Words) : Words :=
  storeState ((List.range blockCount).foldl
    (fun states blk => blockShaNi states ((data.drop (blk * kBlockSize)).take kBlockSize))
    (loadState state))

/-- The variables as the instructions want them. -/
def packed (words : Words) : StateRegisters :=
  (⟨words.f, words.e, words.b, words.a⟩, ⟨words.h, words.g, words.d, words.c⟩)

theorem loadState_eq (state : Words) : loadState state = packed state :=
  rfl

theorem storeState_packed (state : Words) : storeState (packed state) = state :=
  rfl

theorem roundOf_eq (words : Words) (k w : UInt32) :
    roundOf words (w + k) = round words k w := by
  ext1
  case a =>
    simp only [roundOf, round]
    ac_rfl
  case e =>
    simp only [roundOf, round]
    ac_rfl
  all_goals rfl

/-- Four words of a schedule. -/
def quad (w : Nat → UInt32) (index : Nat) : M128 :=
  ⟨w index, w (index + 1), w (index + 2), w (index + 3)⟩

/-- The registers go through four rounds as the variables do. -/
theorem fourRounds_packed (w : Nat → UInt32) (words : Words) (index : Nat) :
    fourRounds index (quad w index) (packed (rounds w words index)) =
      packed (rounds w words (index + 4)) := by
  generalize isBefore : rounds w words index = before
  have after : rounds w words (index + 4) =
      roundOf (roundOf (roundOf (roundOf before (w index + kK.getD index 0))
        (w (index + 1) + kK.getD (index + 1) 0)) (w (index + 2) + kK.getD (index + 2) 0))
        (w (index + 3) + kK.getD (index + 3) 0) := by
    simp only [rounds_succ, nextRound, isBefore, roundOf_eq]
  rw [after]
  rfl

/-- A schedule from its sixteenth word on. -/
def Scheduled (w : Nat → UInt32) : Prop :=
  ∀ index, w (index + 16) =
    sigma1 (w (index + 14)) + w (index + 9) + sigma0 (w (index + 1)) + w index

/-- The next four words, sixteen places behind those they start from. -/
theorem nextMessage_quad {w : Nat → UInt32} (scheduled : Scheduled w) (index : Nat) :
    nextMessage (sha256msg1 (quad w index) (quad w (index + 4))) (quad w (index + 8))
      (quad w (index + 12)) = quad w (index + 16) := by
  have word (place : Nat) : w place + sigma0 (w (place + 1)) + w (place + 9) +
      sigma1 (w (place + 14)) = w (place + 16) := by
    rw [scheduled place]
    ac_rfl
  have w16 := word index
  have w17 := word (index + 1)
  -- The last two words need the first two.
  have w18 := word (index + 2)
  have w19 := word (index + 3)
  rw [nextMessage, alignrEpi8_four]
  simp only [sha256msg2, sha256msg1, addEpi32, quad, M128.mk.injEq]
  simp only [Nat.add_assoc, Nat.reduceAdd] at w16 w17 w18 w19 ⊢
  rw [w16, w17]
  exact ⟨rfl, rfl, w18, w19⟩

theorem loadBE32_drop (bytes : ByteString) (offset : Nat) :
    loadBE32 (bytes.drop offset) =
      hostWord (bytes.getD (offset + 3) 0) (bytes.getD (offset + 2) 0)
        (bytes.getD (offset + 1) 0) (bytes.getD offset 0) := by
  have turned (a b c d : UInt32) : a ||| b ||| c ||| d = d ||| c ||| b ||| a := by
    ac_rfl
  have at_ (place : Nat) : (bytes.drop offset).getD place 0 = bytes.getD (offset + place) 0 := by
    rw [List.getD_eq_getElem?_getD, List.getElem?_drop, List.getD_eq_getElem?_getD]
  rw [loadBE32, at_, at_, at_, at_]
  exact turned _ _ _ _

/-- The mask turns every four bytes round. -/
theorem shuffleEpi8_kShufMask (bytes : ByteString) :
    shuffleEpi8 (loadBytes bytes) kShufMask =
      ⟨loadBE32 (bytes.drop 0), loadBE32 (bytes.drop 4), loadBE32 (bytes.drop 8),
        loadBE32 (bytes.drop 12)⟩ := by
  have places : kShufMask.bytes =
      [3, 2, 1, 0, 7, 6, 5, 4, 11, 10, 9, 8, 15, 14, 13, 12] := by
    decide
  rw [shuffleEpi8, places, bytes_loadBytes]
  simp only [loadBE32_drop]
  rfl

theorem loadMessage (block : ByteString) (index : Nat) :
    shuffleEpi8 (loadBytes (block.drop (index * 4))) kShufMask =
      quad (blockWord block) index := by
  rw [shuffleEpi8_kShufMask, quad]
  simp only [blockWord, List.drop_drop, Nat.add_mul, Nat.reduceMul, Nat.add_zero]

theorem addEpi32_packed (state words : Words) :
    (addEpi32 (packed words).1 (packed state).1, addEpi32 (packed words).2 (packed state).2) =
      packed (add state words) := by
  simp only [addEpi32, packed, add, UInt32.add_comm]

theorem blockShaNi_packed (state : Words) (block : ByteString) :
    blockShaNi (packed state) block = packed (compress state block) := by
  generalize isSchedule : scheduleWord (blockWord block) = w
  have scheduled : Scheduled w := isSchedule ▸ scheduleWord_add (blockWord block)
  have loaded (index : Nat) (isLoaded : index + 3 < 16) :
      shuffleEpi8 (loadBytes (block.drop (index * 4))) kShufMask = quad w index := by
    rw [loadMessage, ← isSchedule, quad, quad, scheduleWord_lt _ (by omega),
      scheduleWord_lt _ (by omega), scheduleWord_lt _ (by omega),
      scheduleWord_lt _ (by omega)]
  have msg0 : shuffleEpi8 (loadBytes (block.drop 0)) kShufMask = quad w 0 :=
    loaded 0 (by decide)
  have msg1 : shuffleEpi8 (loadBytes (block.drop 16)) kShufMask = quad w 4 :=
    loaded 4 (by decide)
  have msg2 : shuffleEpi8 (loadBytes (block.drop 32)) kShufMask = quad w 8 :=
    loaded 8 (by decide)
  have msg3 : shuffleEpi8 (loadBytes (block.drop 48)) kShufMask = quad w 12 :=
    loaded 12 (by decide)
  have start : fourRounds 0 (quad w 0) (packed state) = packed (rounds w state 4) :=
    fourRounds_packed w state 0
  have four (index : Nat) := fourRounds_packed w state index
  have next (index : Nat) := nextMessage_quad scheduled index
  rw [compress_eq, isSchedule, ← addEpi32_packed]
  simp only [blockShaNi, msg0, msg1, msg2, msg3, start, four, next, Nat.reduceAdd]

/-- With the instructions or without them, the blocks leave the same state. -/
theorem processBlocksShaNi_eq_software (data : ByteString) (blockCount : Nat)
    (state : Words) :
    processBlocksShaNi data blockCount state =
      processBlocksSoftware data blockCount state := by
  rw [processBlocksShaNi, processBlocksSoftware, loadState_eq,
    List.foldl_hom packed fun state blk =>
      blockShaNi_packed state ((data.drop (blk * kBlockSize)).take kBlockSize)]
  exact storeState_packed _

end Sha256

end Nova

end Blocxxi
