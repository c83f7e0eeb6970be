import Blocxxi.HashWords

/-!
# Vectors of four words

The instructions on 128-bit registers that the block loop is written with, as they
are documented.  A register has four lanes, the lowest first, and sixteen bytes, the
lowest byte of every lane first.
-/

namespace Blocxxi

namespace Simd

open Cxx Hash

@[ext]
structure M128 where
  lane0 : UInt32
  lane1 : UInt32
  lane2 : UInt32
  lane3 : UInt32
  deriving DecidableEq

namespace M128

def bytes (vector : M128) : ByteString :=
  wordBytes vector.lane0 ++ wordBytes vector.lane1 ++ wordBytes vector.lane2 ++
    wordBytes vector.lane3

def lane (vector : M128) (index : Nat) : UInt32 :=
  match index with
  | 0 => vector.lane0
  | 1 => vector.lane1
  | 2 => vector.lane2
  | _ => vector.lane3

end M128

/-- The lane that starts at an offset. -/
def laneAt (bytes : ByteString) (offset : Nat) : UInt32 :=
  hostWord (bytes.getD offset 0) (bytes.getD (offset + 1) 0) (bytes.getD (offset + 2) 0)
    (bytes.getD (offset + 3) 0)

/-- `_mm_loadu_si128` of bytes. -/
def loadBytes (bytes : ByteString) : M128 :=
  ⟨laneAt bytes 0, laneAt bytes 4, laneAt bytes 8, laneAt bytes 12⟩

/-- `_mm_loadu_si128` of words. -/
def loadWords (words : List UInt32) (index : Nat) : M128 :=
  ⟨words.getD index 0, words.getD (index + 1) 0, words.getD (index + 2) 0,
    words.getD (index + 3) 0⟩

/-- `_mm_set_epi64x`. -/
def setEpi64x (high low : UInt64) : M128 :=
  ⟨low.toUInt32, (low >>> 32).toUInt32, high.toUInt32, (high >>> 32).toUInt32⟩

/-- `_mm_add_epi32`. -/
def addEpi32 (a b : M128) : M128 :=
  ⟨a.lane0 + b.lane0, a.lane1 + b.lane1, a.lane2 + b.lane2, a.lane3 + b.lane3⟩

/-- `_mm_shuffle_epi8`: a byte of the mask is the place a byte comes from, or has its
highest bit set where there is none. -/
def shuffleEpi8 (a mask : M128) : M128 :=
  loadBytes (mask.bytes.map fun place =>
    if place &&& 0x80 = 0 then a.bytes.getD (place &&& 0x0F).toNat 0 else 0)

/-- `_mm_shuffle_epi32`: two bits of the control for each lane. -/
def shuffleEpi32 (a : M128) (imm8 : Nat) : M128 :=
  ⟨a.lane (imm8 % 4), a.lane (imm8 / 4 % 4), a.lane (imm8 / 16 % 4), a.lane (imm8 / 64 % 4)⟩

/-- `_mm_unpacklo_epi64`. -/
def unpackloEpi64 (a b : M128) : M128 :=
  ⟨a.lane0, a.lane1, b.lane0, b.lane1⟩

/-- `_mm_unpackhi_epi64`. -/
def unpackhiEpi64 (a b : M128) : M128 :=
  ⟨a.lane2, a.lane3, b.lane2, b.lane3⟩

/-- `_mm_alignr_epi8`: bytes from the middle of two registers. -/
def alignrEpi8 (a b : M128) (imm8 : Nat) : M128 :=
  loadBytes ((b.bytes ++ a.bytes).drop imm8)

theorem hostWord_wordBytes (word : UInt32) :
    hostWord word.toUInt8 (word >>> 8).toUInt8 (word >>> 16).toUInt8
      (word >>> 24).toUInt8 = word := by
  have wordLt := word.toNat_lt
  apply UInt32.toNat_inj.mp
  rw [hostWord_toNat, UInt32.toNat_toUInt8, shiftedOut_toNat _ (by decide),
    shiftedOut_toNat _ (by decide), shiftedOut_toNat _ (by decide)]
  change word.toNat % 2 ^ 8 + 2 ^ 8 * (word.toNat / 2 ^ 8 % 2 ^ 8) +
    2 ^ 16 * (word.toNat / 2 ^ 16 % 2 ^ 8) + 2 ^ 24 * (word.toNat / 2 ^ 24 % 2 ^ 8) = _
  omega

/-- What is loaded has the bytes that were there. -/
theorem bytes_loadBytes (bytes : ByteString) :
    (loadBytes bytes).bytes = (List.range 16).map fun index => bytes.getD index 0 := by
  simp only [M128.bytes, loadBytes, laneAt, wordBytes_hostWord]
  rfl

/-- A register is aligned by one lane. -/
theorem alignrEpi8_four (a b : M128) :
    alignrEpi8 a b 4 = ⟨b.lane1, b.lane2, b.lane3, a.lane0⟩ := by
  ext1
  · exact hostWord_wordBytes b.lane1
  · exact hostWord_wordBytes b.lane2
  · exact hostWord_wordBytes b.lane3
  · exact hostWord_wordBytes a.lane0

end Simd

end Blocxxi
