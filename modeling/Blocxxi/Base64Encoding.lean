import Blocxxi.Base64Text
import Blocxxi.ByteText

/-!
# The credentials of a request

The credentials of an RPC request are encoded in base 64.  The encoder shifts
every byte into an accumulator of 32 bits and writes a digit for each six bits
that wait in it.  The accumulator is never cleared, so it keeps the bits that are
written and loses the oldest; what a digit is read from is a window of at most
twelve bits at its low end.
-/

namespace Blocxxi

namespace Bitcoin

def kBase64Alphabet : ByteString :=
  ascii "ABCDEFGHIJKLMNOPQRSTUVWXYZabcdefghijklmnopqrstuvwxyz0123456789+/"

/-- The digit of the low six bits of a number. -/
def base64Digit (number : UInt32) : UInt8 :=
  kBase64Alphabet.getD (number &&& 0x3F).toNat 0

structure EncoderState where
  accumulator : UInt32 := 0
  bits : Nat := 0
  output : ByteString := []

/-- The inner loop: a digit for each six bits that wait. -/
def writeDigits (state : EncoderState) : EncoderState :=
  if 6 ≤ state.bits then
    let bits := state.bits - 6
    writeDigits
      { state with
        bits := bits
        output := state.output ++
          [base64Digit (state.accumulator >>> UInt32.ofNat bits)] }
  else state
termination_by state.bits

def shiftIn (state : EncoderState) (byte : UInt8) : EncoderState :=
  { state with
    accumulator := (state.accumulator <<< 8) ||| byte.toUInt32
    bits := state.bits + 8 }

def encodeByte (state : EncoderState) (byte : UInt8) : EncoderState :=
  writeDigits (shiftIn state byte)

/-- The digit of the bits that are left, filled up with zeros. -/
def writeRemainder (state : EncoderState) : ByteString :=
  if 0 < state.bits then
    state.output ++
      [base64Digit (state.accumulator <<< UInt32.ofNat (6 - state.bits))]
  else state.output

def padOutput (output : ByteString) : ByteString :=
  if output.length % 4 ≠ 0 then padOutput (output ++ [61]) else output
termination_by (4 - output.length % 4) % 4
decreasing_by
  rw [List.length_append, List.length_singleton]
  omega

def base64Encode (value : ByteString) : ByteString :=
  padOutput (writeRemainder (value.foldl encodeByte {}))

theorem base64Digit_eq (number : UInt32) :
    base64Digit number = Base64.digit (number.toNat % 64) := by
  have table : ∀ value : Fin 64,
      kBase64Alphabet.getD value 0 = Base64.digit value := by
    decide +kernel
  have low : (number &&& 0x3F).toNat = number.toNat % 64 := by
    rw [UInt32.toNat_and]
    exact Nat.and_two_pow_sub_one_eq_mod number.toNat 6
  rw [base64Digit, low]
  exact table ⟨number.toNat % 64, Nat.mod_lt _ (by decide)⟩

/-- Of the accumulator that a byte is shifted into, the low 24 bits remain. -/
theorem shiftIn_accumulator (state : EncoderState) (byte : UInt8) :
    (shiftIn state byte).accumulator.toNat =
      state.accumulator.toNat % 2 ^ 24 * 2 ^ 8 + byte.toNat := by
  have shifted : (state.accumulator <<< 8).toNat =
      2 ^ 8 * (state.accumulator.toNat % 2 ^ 24) := by
    rw [UInt32.toNat_shiftLeft]
    change state.accumulator.toNat <<< 8 % 2 ^ 32 = _
    rw [Nat.shiftLeft_eq]
    omega
  rw [shiftIn, UInt32.toNat_or, shifted, UInt8.toNat_toUInt32,
    ← Nat.two_pow_add_eq_or_of_lt byte.toNat_lt]
  omega

/-- What waits to be written: a number of bits, and the number that they spell. -/
structure Window (state : EncoderState) (bits pending : Nat) (output : ByteString) :
    Prop where
  bits_eq : state.bits = bits
  pending_eq : state.accumulator.toNat % 2 ^ bits = pending
  output_eq : state.output = output

namespace Window

variable {state : EncoderState} {bits pending : Nat} {output : ByteString}

/-- A byte goes to the low end of the window. -/
theorem shiftIn (window : Window state bits pending output) (narrow : bits ≤ 24)
    (byte : UInt8) :
    Window (Bitcoin.shiftIn state byte) (bits + 8) (pending * 2 ^ 8 + byte.toNat)
      output := by
  refine ⟨?_, ?_, window.output_eq⟩
  · rw [Bitcoin.shiftIn, window.bits_eq]
  · have low : state.accumulator.toNat % 2 ^ 24 % 2 ^ bits = pending := by
      rw [Nat.mod_mod_of_dvd _ (Nat.pow_dvd_pow 2 narrow), window.pending_eq]
    have byteLt := byte.toNat_lt
    have lowest : (state.accumulator.toNat % 2 ^ 24 * 2 ^ 8 + byte.toNat) % 2 ^ 8 =
        byte.toNat := by
      omega
    have above : (state.accumulator.toNat % 2 ^ 24 * 2 ^ 8 + byte.toNat) / 2 ^ 8 =
        state.accumulator.toNat % 2 ^ 24 := by
      omega
    rw [shiftIn_accumulator, pow_add, Nat.mul_comm (2 ^ bits), Nat.mod_mul, lowest,
      above, low, Nat.mul_comm, Nat.add_comm]

/-- A digit is taken from the high end of the window. -/
theorem digit (window : Window state (bits + 6) pending output) (narrow : bits < 32) :
    ∃ next, writeDigits state = writeDigits next ∧
      Window next bits (pending % 2 ^ bits)
        (output ++ [Base64.digit (pending / 2 ^ bits)]) := by
  obtain ⟨isBits, isPending, isOutput⟩ := window
  have place : (UInt32.ofNat bits).toNat % 32 = bits := by
    rw [UInt32.toNat_ofNat']
    omega
  rw [writeDigits, if_pos (by omega)]
  refine ⟨_, rfl, ?_, ?_, ?_⟩
  · dsimp only
    omega
  · dsimp only
    rw [← isPending, Nat.mod_mod_of_dvd _ (Nat.pow_dvd_pow 2 (Nat.le_add_right bits 6))]
  · dsimp only
    rw [isBits, Nat.add_sub_cancel, base64Digit_eq, UInt32.toNat_shiftRight, place,
      Nat.shiftRight_eq_div_pow, isOutput, ← isPending, pow_add,
      Nat.mod_mul_right_div_self]
    rfl

theorem done (window : Window state bits pending output) (few : bits < 6) :
    Window (writeDigits state) bits pending output := by
  rw [writeDigits, if_neg]
  · exact window
  · rw [window.bits_eq]
    exact Nat.not_le.mpr few

/-- A byte behind fewer than four bits completes one digit. -/
theorem encodeByte (window : Window state bits pending output) (few : bits < 4)
    (byte : UInt8) :
    Window (Bitcoin.encodeByte state byte) (bits + 2)
      ((pending * 2 ^ 8 + byte.toNat) % 2 ^ (bits + 2))
      (output ++ [Base64.digit ((pending * 2 ^ 8 + byte.toNat) / 2 ^ (bits + 2))]) := by
  have wide : Window (Bitcoin.shiftIn state byte) (bits + 2 + 6)
      (pending * 2 ^ 8 + byte.toNat) output :=
    window.shiftIn (by omega) byte
  obtain ⟨next, same, narrower⟩ := wide.digit (by omega)
  rw [Bitcoin.encodeByte, same]
  exact narrower.done (by omega)

theorem first (window : Window state 0 0 output) (byte : UInt8) :
    Window (Bitcoin.encodeByte state byte) 2 (byte.toNat % 4)
      (output ++ [Base64.digit (byte.toNat / 4)]) := by
  simpa using window.encodeByte (by decide) byte

theorem second (window : Window state 2 pending output) (byte : UInt8) :
    Window (Bitcoin.encodeByte state byte) 4 (byte.toNat % 16)
      (output ++ [Base64.digit (pending * 16 + byte.toNat / 16)]) := by
  have left : (pending * 2 ^ 8 + byte.toNat) % 2 ^ (2 + 2) = byte.toNat % 16 := by
    omega
  have taken : (pending * 2 ^ 8 + byte.toNat) / 2 ^ (2 + 2) =
      pending * 16 + byte.toNat / 16 := by
    omega
  simpa only [left, taken] using window.encodeByte (by decide) byte

/-- A byte behind four bits completes two digits, and nothing waits. -/
theorem third (window : Window state 4 pending output) (byte : UInt8) :
    Window (Bitcoin.encodeByte state byte) 0 0
      (output ++ [Base64.digit (pending * 4 + byte.toNat / 64),
        Base64.digit (byte.toNat % 64)]) := by
  have wide : Window (Bitcoin.shiftIn state byte) (6 + 6)
      (pending * 2 ^ 8 + byte.toNat) output :=
    window.shiftIn (by decide) byte
  have taken : (pending * 2 ^ 8 + byte.toNat) / 2 ^ 6 =
      pending * 4 + byte.toNat / 64 := by
    omega
  have left : (pending * 2 ^ 8 + byte.toNat) % 2 ^ 6 = byte.toNat % 64 := by
    omega
  obtain ⟨next, same, narrower⟩ := wide.digit (by decide)
  rw [taken, left] at narrower
  have sixBits : Window next (0 + 6) (byte.toNat % 64)
      (output ++ [Base64.digit (pending * 4 + byte.toNat / 64)]) :=
    narrower
  obtain ⟨last, sameLast, empty⟩ := sixBits.digit (by decide)
  rw [Bitcoin.encodeByte, same, sameLast]
  simpa [Nat.mod_one] using empty.done (by decide)

/-- What is left is filled up with zeros. -/
theorem remainder (window : Window state bits pending output) (waits : 0 < bits)
    (few : bits < 6) :
    writeRemainder state = output ++ [Base64.digit (pending * 2 ^ (6 - bits))] := by
  obtain ⟨isBits, isPending, isOutput⟩ := window
  have place : (UInt32.ofNat (6 - bits)).toNat % 32 = 6 - bits := by
    rw [UInt32.toNat_ofNat']
    omega
  have whole : 64 = 2 ^ bits * 2 ^ (6 - bits) := by
    rw [← pow_add, Nat.add_sub_cancel' (Nat.le_of_lt few)]
    rfl
  have filled : (state.accumulator <<< UInt32.ofNat (6 - bits)).toNat % 64 =
      pending * 2 ^ (6 - bits) := by
    rw [UInt32.toNat_shiftLeft, place, Nat.shiftLeft_eq,
      Nat.mod_mod_of_dvd _ (by decide : 64 ∣ 2 ^ 32), whole, Nat.mul_mod_mul_right,
      isPending]
  rw [writeRemainder, if_pos (by omega), isBits, base64Digit_eq, filled, isOutput]

theorem noRemainder (window : Window state 0 pending output) :
    writeRemainder state = output := by
  rw [writeRemainder, if_neg (by rw [window.bits_eq]; exact Nat.lt_irrefl 0),
    window.output_eq]

end Window

theorem padOutput_full {output : ByteString} (full : output.length % 4 = 0) :
    padOutput output = output := by
  rw [padOutput, if_neg (not_not.mpr full)]

theorem padOutput_short {output : ByteString} (short : output.length % 4 ≠ 0) :
    padOutput output = padOutput (output ++ [61]) := by
  rw [padOutput, if_pos short]

/-- From an empty window on, groups of three bytes are written as they are encoded. -/
theorem encoded_of_window {state : EncoderState} {output : ByteString}
    (window : Window state 0 0 output) (whole : output.length % 4 = 0)
    (value : ByteString) :
    padOutput (writeRemainder (value.foldl encodeByte state)) =
      output ++ Base64.encode value := by
  induction value using Base64.encode.induct generalizing state output with
  | case1 =>
      rw [List.foldl_nil, window.noRemainder, padOutput_full whole, Base64.encode,
        List.append_nil]
  | case2 first =>
      have two := window.first first
      rw [List.foldl_cons, List.foldl_nil, two.remainder (by decide) (by decide),
        padOutput_short, padOutput_short, padOutput_full, Base64.encode,
        Base64.digits_group]
      · simp
      · simp only [List.length_append, List.length_singleton]
        omega
      · simp only [List.length_append, List.length_singleton]
        omega
      · simp only [List.length_append, List.length_singleton]
        omega
  | case3 first second =>
      have two := window.first first
      have four := two.second second
      rw [List.foldl_cons, List.foldl_cons, List.foldl_nil,
        four.remainder (by decide) (by decide), padOutput_short, padOutput_full,
        Base64.encode, Base64.digits_group]
      · simp
      · simp only [List.length_append, List.length_singleton]
        omega
      · simp only [List.length_append, List.length_singleton]
        omega
  | case4 first second third rest ih =>
      have two := window.first first
      have four := two.second second
      have wholeGroup := four.third third
      rw [List.foldl_cons, List.foldl_cons, List.foldl_cons, ih wholeGroup (by
        simp only [List.length_append, List.length_cons, List.length_nil]
        omega), Base64.encode, Base64.digits_group]
      simp

/-- Credentials of every length are encoded as RFC 4648 has it, so they are decoded
again, and every three bytes take four digits. -/
theorem base64Encode_encodes (value : ByteString) :
    base64Encode value = Base64.encode value ∧
      Base64.decode (base64Encode value) = some value ∧
      (base64Encode value).length = 4 * ((value.length + 2) / 3) := by
  have start : Window {} 0 0 [] := ⟨rfl, rfl, rfl⟩
  have encoded : base64Encode value = Base64.encode value :=
    encoded_of_window start rfl value
  rw [encoded]
  exact ⟨rfl, Base64.decode_encode value, Base64.encode_length value⟩

end Bitcoin

end Blocxxi
