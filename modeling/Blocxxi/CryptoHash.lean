import Blocxxi.Base16Codec

/-!
# Fixed-width hashes

A hash is a fixed number of bytes, most significant first.  The width is part
of the type, so a hash of the wrong size cannot be built.
-/

namespace Blocxxi

open Cxx

@[ext]
structure Hash (bits : Nat) where
  bytes : ByteString
  size_eq : bytes.length = bits / 8
  deriving DecidableEq

abbrev Hash256 := Hash 256
abbrev Hash160 := Hash 160

namespace Hash

variable {bits : Nat}

/-- The hash of all zero bits, which the default constructor builds. -/
def zero : Hash bits where
  bytes := List.replicate (bits / 8) 0
  size_eq := by simp

instance : Inhabited (Hash bits) := ⟨zero⟩

def toHex (hash : Hash bits) : ByteString :=
  Hex.encode hash.bytes false true

def fromHex (src : ByteString) (reverse : Bool) : Except Fault (Hash bits) :=
  match decoded : Hex.decode src (zero : Hash bits).bytes reverse with
  | .ok bytes => .ok ⟨bytes, by rw [Hex.decode_length decoded, zero.size_eq]⟩
  | .error fault => .error fault

theorem fromHex_eq_ok_iff {src : ByteString} {reverse : Bool} {hash : Hash bits} :
    fromHex src reverse = .ok hash ↔
      Hex.decode src (zero : Hash bits).bytes reverse = .ok hash.bytes := by
  unfold fromHex
  split
  · rename_i bytes decoded
    constructor
    · intro equal
      cases equal
      exact decoded
    · intro equal
      have same := Except.ok.inj (decoded.symm.trans equal)
      cases hash
      cases same
      rfl
  · rename_i fault decoded
    constructor
    · intro equal
      cases equal
    · intro equal
      cases decoded.symm.trans equal

@[simp]
theorem toHex_length (hash : Hash bits) :
    hash.toHex.length = 2 * (bits / 8) := by
  rw [toHex, Hex.encode_length, hash.size_eq]

@[simp]
theorem fromHex_toHex (hash : Hash bits) :
    fromHex hash.toHex false = .ok hash := by
  rw [fromHex_eq_ok_iff]
  by_cases empty : hash.bytes = []
  · have width : bits / 8 = 0 := by rw [← hash.size_eq, empty]; rfl
    simp [toHex, empty, Hex.encode, Hex.decode, zero, width]
  · rw [toHex, Hex.decode_encode true empty (by simp [zero, hash.size_eq])]
    simp [zero, hash.size_eq]

theorem toHex_injective :
    Function.Injective (toHex : Hash bits → ByteString) := by
  intro first second equal
  have decoded : (.ok first : Except Fault (Hash bits)) = .ok second := by
    rw [← fromHex_toHex first, equal, fromHex_toHex]
  exact Except.ok.inj decoded

end Hash

end Blocxxi
