import Mathlib.Algebra.Order.Ring.Nat
import Mathlib.Data.List.Lex
import Mathlib.Data.Nat.Bitwise

/-!
# Fields of a word

A field is a run of bits of a word.  Writing a field changes nothing outside of it, and
words that are cut into fields are ordered by their fields, the highest one first.
-/

namespace BitFields

/-- A run of bits of a word. -/
structure Field (size : Nat) where
  offset : Nat
  width : Nat
  fits : offset + width ≤ size

namespace Field

variable {size : Nat} (field : Field size)

def get (word : BitVec size) : Nat :=
  (word.extractLsb' field.offset field.width).toNat

/-- The word with ones in the field and zeros elsewhere. -/
def mask : BitVec size :=
  (BitVec.allOnes field.width).setWidth size <<< field.offset

def set (word : BitVec size) (value : Nat) : BitVec size :=
  (word &&& ~~~field.mask) |||
    (BitVec.ofNat field.width value).setWidth size <<< field.offset

/-- No bit is in both fields. -/
def Apart (other : Field size) : Prop :=
  field.offset + field.width ≤ other.offset ∨ other.offset + other.width ≤ field.offset

instance (other : Field size) : Decidable (field.Apart other) :=
  inferInstanceAs (Decidable (_ ∨ _))

theorem get_lt (word : BitVec size) : field.get word < 2 ^ field.width :=
  BitVec.isLt _

theorem getLsbD_replaced (word : BitVec size) (bits : BitVec field.width) (index : Nat) :
    ((word &&& ~~~field.mask) ||| bits.setWidth size <<< field.offset).getLsbD index =
      if field.offset ≤ index ∧ index < field.offset + field.width then
        bits.getLsbD (index - field.offset)
      else
        word.getLsbD index := by
  have fits := field.fits
  by_cases inWord : index < size
  · by_cases low : index < field.offset
    · simp [mask, low, inWord, Nat.not_le.mpr low]
    · by_cases high : index < field.offset + field.width
      · have inField : index - field.offset < field.width := by omega
        simp [mask, inWord, low, high, inField, Nat.not_lt.mp low]
      · have beyond : bits.getLsbD (index - field.offset) = false :=
          BitVec.getLsbD_of_ge _ _ (by omega)
        have notInField : ¬ index - field.offset < field.width := by omega
        simp [mask, inWord, low, high, beyond, notInField]
  · rw [BitVec.getLsbD_of_ge _ _ (Nat.not_lt.mp inWord), if_neg (by omega),
      BitVec.getLsbD_of_ge _ _ (Nat.not_lt.mp inWord)]

@[simp]
theorem get_set (word : BitVec size) (value : Nat) :
    field.get (field.set word value) = value % 2 ^ field.width := by
  have isValue : (field.set word value).extractLsb' field.offset field.width =
      BitVec.ofNat field.width value := by
    apply BitVec.eq_of_getLsbD_eq
    intro index inField
    rw [BitVec.getLsbD_extractLsb', set, getLsbD_replaced]
    simp [inField]
  rw [get, isValue, BitVec.toNat_ofNat]

variable {field} in
theorem get_set_of_apart {other : Field size} (apart : field.Apart other)
    (word : BitVec size) (value : Nat) :
    other.get (field.set word value) = other.get word := by
  have isSame : (field.set word value).extractLsb' other.offset other.width =
      word.extractLsb' other.offset other.width := by
    ext index inField
    have outside : ¬ (field.offset ≤ other.offset + index ∧
        other.offset + index < field.offset + field.width) := by
      rcases apart with before | behind <;> omega
    simp only [BitVec.getElem_extractLsb', set, getLsbD_replaced, if_neg outside]
  rw [get, isSame, get]

/-- The bits below the end of a field are the field and the bits below it. -/
theorem mod_end (word : BitVec size) :
    word.toNat % 2 ^ (field.offset + field.width) =
      2 ^ field.offset * field.get word + word.toNat % 2 ^ field.offset := by
  rw [get, BitVec.extractLsb'_toNat, Nat.shiftRight_eq_div_pow, pow_add, Nat.mod_mul,
    Nat.add_comm]

end Field

variable {size : Nat}

/-- The fields lie one below the other, from a bit down to the lowest. -/
def Stacked : Nat → List (Field size) → Prop
  | top, [] => top = 0
  | top, field :: rest => field.offset + field.width = top ∧ Stacked field.offset rest

def values (fields : List (Field size)) (word : BitVec size) : List Nat :=
  fields.map fun field => field.get word

theorem mod_lt_mod_iff {fields : List (Field size)} {top : Nat} (stacked : Stacked top fields)
    (first second : BitVec size) :
    first.toNat % 2 ^ top < second.toNat % 2 ^ top ↔
      values fields first < values fields second := by
  induction fields generalizing top with
  | nil =>
      rw [Stacked] at stacked
      simp [stacked, values, Nat.mod_one]
  | cons field rest ih =>
      obtain ⟨rfl, below⟩ := stacked
      have firstLow := Nat.mod_lt first.toNat (Nat.two_pow_pos field.offset)
      have secondLow := Nat.mod_lt second.toNat (Nat.two_pow_pos field.offset)
      rw [field.mod_end, field.mod_end, values, values, List.map_cons, List.map_cons,
        List.cons_lt_cons_iff]
      change _ ↔ _ ∨ _ ∧ values rest first < values rest second
      rw [← ih below]
      generalize field.get first = high, field.get second = other
      generalize first.toNat % 2 ^ field.offset = low at firstLow ⊢
      generalize second.toNat % 2 ^ field.offset = otherLow at secondLow ⊢
      generalize 2 ^ field.offset = scale at firstLow secondLow ⊢
      rcases lt_trichotomy high other with less | same | more
      · have scaled : scale * (high + 1) ≤ scale * other := Nat.mul_le_mul_left scale less
        rw [Nat.mul_succ] at scaled
        exact ⟨fun _ => .inl less, fun _ => by omega⟩
      · simp [same]
      · have scaled : scale * (other + 1) ≤ scale * high := Nat.mul_le_mul_left scale more
        rw [Nat.mul_succ] at scaled
        exact ⟨fun _ => by omega, fun _ => by omega⟩

/-- The highest field in which two words differ decides between them. -/
theorem lt_iff_values_lt {fields : List (Field size)} (stacked : Stacked size fields)
    (first second : BitVec size) :
    first < second ↔ values fields first < values fields second := by
  rw [← mod_lt_mod_iff stacked, Nat.mod_eq_of_lt first.isLt, Nat.mod_eq_of_lt second.isLt,
    BitVec.lt_def]

theorem eq_of_values_eq {fields : List (Field size)} (stacked : Stacked size fields)
    {first second : BitVec size} (same : values fields first = values fields second) :
    first = second := by
  have notLess := (lt_iff_values_lt stacked first second).not.mpr (same ▸ lt_irrefl _)
  have notMore := (lt_iff_values_lt stacked second first).not.mpr (same ▸ lt_irrefl _)
  exact BitVec.le_antisymm (BitVec.not_lt.mp notMore) (BitVec.not_lt.mp notLess)

end BitFields
