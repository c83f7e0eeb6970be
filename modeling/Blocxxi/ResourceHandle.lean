import Blocxxi.BitFields

/-!
# Resource handles

A handle is a word that is cut into six fields.  Every setter of the handle writes its own
field and no other, and handles are ordered by their fields, the reserved bits first.
-/

namespace Blocxxi

namespace Nova

open BitFields

structure ResourceHandle where
  handle : UInt64
  deriving DecidableEq

namespace ResourceHandle

def kHandleBits : UInt64 := 64
def kReservedBits : UInt64 := 3
def kCustomBits : UInt64 := 8
def kResourceTypeBits : UInt64 := 8
def kGenerationBits : UInt64 := 12
def kIndexBits : UInt64 := 32

def kHandleMask : UInt64 := 0 - 1
def kIndexMask : UInt64 := (1 <<< kIndexBits) - 1
def kGenerationMask : UInt64 := (1 <<< kGenerationBits) - 1
def kResourceTypeMask : UInt64 := (1 <<< kResourceTypeBits) - 1
def kCustomMask : UInt64 := (1 <<< kCustomBits) - 1
def kReservedMask : UInt64 := (1 <<< kReservedBits) - 1

def kGenerationMax : UInt16 := kGenerationMask.toUInt16
def kIndexMax : UInt32 := kIndexMask.toUInt32
def kInvalidIndex : UInt32 := kIndexMax

def kCustomSetMask : UInt64 :=
  ((1 <<< (kIndexBits + kGenerationBits)) - 1) |||
    kHandleMask <<< (kIndexBits + kGenerationBits + kCustomBits)

def kResourceTypeSetMask : UInt64 :=
  ((1 <<< (kIndexBits + kGenerationBits + kCustomBits)) - 1) |||
    kHandleMask <<< (kIndexBits + kGenerationBits + kCustomBits + kResourceTypeBits)

def kGenerationSetMask : UInt64 :=
  kHandleMask <<< (kIndexBits + kGenerationBits) ||| kIndexMask

def kIndexSetMask : UInt64 := kHandleMask <<< kIndexBits

def kReservedSetMask : UInt64 := (1 <<< (kHandleBits - kReservedBits)) - 1

variable (self : ResourceHandle)

def index : UInt32 := (self.handle &&& kIndexMask).toUInt32

def setIndex (index : UInt32) : ResourceHandle :=
  ⟨(self.handle &&& kIndexSetMask) |||
    (if index ≤ kIndexMax then index else kInvalidIndex).toUInt64⟩

def resourceType : UInt8 :=
  (self.handle >>> (kIndexBits + kGenerationBits + kCustomBits) &&&
    kResourceTypeMask).toUInt8

def setResourceType (type : UInt8) : ResourceHandle :=
  ⟨(self.handle &&& kResourceTypeSetMask) |||
    type.toUInt64 <<< (kIndexBits + kGenerationBits + kCustomBits)⟩

def custom : UInt8 :=
  (self.handle >>> (kIndexBits + kGenerationBits) &&& kCustomMask).toUInt8

def setCustom (custom : UInt8) : ResourceHandle :=
  ⟨(self.handle &&& kCustomSetMask) |||
    custom.toUInt64 <<< (kIndexBits + kGenerationBits)⟩

def reserved : UInt8 :=
  (self.handle >>> (kHandleBits - kReservedBits) &&& kReservedMask).toUInt8

def setReserved (reserved : UInt8) : ResourceHandle :=
  ⟨(self.handle &&& kReservedSetMask) |||
    reserved.toUInt64 <<< (kHandleBits - kReservedBits)⟩

def generation : UInt16 := (self.handle >>> kIndexBits &&& kGenerationMask).toUInt16

def setGeneration (generation : UInt16) : ResourceHandle :=
  let generation := if generation > kGenerationMax then 0 else generation
  ⟨(self.handle &&& kGenerationSetMask) ||| generation.toUInt64 <<< kIndexBits⟩

def newGeneration : ResourceHandle :=
  let currentGeneration := self.generation
  let newGeneration : UInt16 :=
    if currentGeneration = kGenerationMax then 0 else currentGeneration + 1
  ⟨(self.handle &&& kGenerationSetMask) ||| newGeneration.toUInt64 <<< kIndexBits⟩

def isFree : Bool :=
  (self.handle &&& 1 <<< (kHandleBits - kReservedBits - 1)) != 0

def setFree (flag : Bool) : ResourceHandle :=
  let freeBitPosition := kHandleBits - kReservedBits - 1
  let handle := self.handle &&& ~~~(1 <<< freeBitPosition)
  ⟨if flag then handle ||| 1 <<< freeBitPosition else handle⟩

def isValid : Bool := self.index != kInvalidIndex

/-- The constructor with an index and a type. -/
def make (index : UInt32) (type : UInt8) : ResourceHandle :=
  (((((ResourceHandle.mk kHandleMask).setIndex index).setResourceType type).setGeneration
    0).setCustom 0).setReserved 0 |>.setFree false

instance : LT ResourceHandle := ⟨fun first second => first.handle < second.handle⟩

def indexField : Field 64 := ⟨0, 32, by omega⟩
def generationField : Field 64 := ⟨32, 12, by omega⟩
def customField : Field 64 := ⟨44, 8, by omega⟩
def typeField : Field 64 := ⟨52, 8, by omega⟩
def freeField : Field 64 := ⟨60, 1, by omega⟩
def reservedField : Field 64 := ⟨61, 3, by omega⟩

/-- The word of a handle. -/
def word : BitVec 64 := self.handle.toBitVec

section Words

variable {mask position word : UInt64} (field : Field 64)

theorem toNat_get (isMask : mask.toBitVec = (BitVec.allOnes field.width).setWidth 64)
    (isOffset : position.toNat = field.offset) (small : field.offset < 64) :
    (word >>> position &&& mask).toNat = field.get word.toBitVec := by
  have isBits : (word >>> position &&& mask).toBitVec =
      (word.toBitVec.extractLsb' field.offset field.width).setWidth 64 := by
    ext index inWord
    rw [← BitVec.getLsbD_eq_getElem, ← BitVec.getLsbD_eq_getElem]
    simp [isMask, isOffset, Nat.mod_eq_of_lt small, inWord, Bool.and_comm]
  have bound := field.get_lt word.toBitVec
  have narrow : 2 ^ field.width ≤ 2 ^ 64 :=
    Nat.pow_le_pow_right (by omega) (by have := field.fits; omega)
  rw [← UInt64.toNat_toBitVec, isBits, BitVec.toNat_setWidth]
  exact Nat.mod_eq_of_lt (bound.trans_le narrow)

theorem toBitVec_set (isMask : mask.toBitVec = ~~~field.mask)
    (isOffset : position.toNat = field.offset) (small : field.offset < 64) {value : UInt64}
    (fits : value.toNat < 2 ^ field.width) :
    ((word &&& mask) ||| value <<< position).toBitVec =
      field.set word.toBitVec value.toNat := by
  have isBits : value.toBitVec = (BitVec.ofNat field.width value.toNat).setWidth 64 := by
    apply BitVec.eq_of_toNat_eq
    rw [BitVec.toNat_setWidth, BitVec.toNat_ofNat, Nat.mod_eq_of_lt fits]
    exact (Nat.mod_eq_of_lt value.toNat_lt).symm
  simp [isMask, Field.set, isBits, isOffset, Nat.mod_eq_of_lt small]

end Words

theorem toNat_index : self.index.toNat = indexField.get self.word := by
  have isField := @toNat_get kIndexMask 0 self.handle indexField (by decide) rfl (by decide)
  rw [UInt64.shiftRight_zero] at isField
  rw [index, UInt64.toNat_toUInt32, isField]
  exact Nat.mod_eq_of_lt (BitVec.isLt _)

theorem toNat_generation :
    self.generation.toNat = generationField.get self.word := by
  have bound : generationField.get self.word < 2 ^ 12 := BitVec.isLt _
  rw [generation, UInt64.toNat_toUInt16, toNat_get generationField (by decide) (by decide)
    (by decide)]
  exact Nat.mod_eq_of_lt (bound.trans (by decide))

theorem toNat_custom : self.custom.toNat = customField.get self.word := by
  rw [custom, UInt64.toNat_toUInt8, toNat_get customField (by decide) (by decide)
    (by decide)]
  exact Nat.mod_eq_of_lt (BitVec.isLt _)

theorem toNat_resourceType : self.resourceType.toNat = typeField.get self.word := by
  rw [resourceType, UInt64.toNat_toUInt8, toNat_get typeField (by decide) (by decide)
    (by decide)]
  exact Nat.mod_eq_of_lt (BitVec.isLt _)

theorem toNat_reserved : self.reserved.toNat = reservedField.get self.word := by
  have bound : reservedField.get self.word < 2 ^ 3 := BitVec.isLt _
  rw [reserved, UInt64.toNat_toUInt8, toNat_get reservedField (by decide) (by decide)
    (by decide)]
  exact Nat.mod_eq_of_lt (bound.trans (by decide))

theorem isFree_eq : self.isFree = self.word.getLsbD 60 := by
  have isBit : (1 <<< (kHandleBits - kReservedBits - 1) : UInt64).toBitVec =
      BitVec.twoPow 64 60 := by
    decide
  have isTest : self.isFree = true ↔ self.word &&& BitVec.twoPow 64 60 ≠ 0 := by
    rw [isFree, bne_iff_ne, Ne, ← UInt64.toBitVec_inj, UInt64.toBitVec_and, isBit]
    rfl
  rw [Bool.eq_iff_iff, isTest, BitVec.and_twoPow]
  cases self.word.getLsbD 60 <;> decide

theorem toNat_isFree : self.isFree.toNat = freeField.get self.word := by
  have isBit : self.word.extractLsb' 60 1 = BitVec.ofBool (self.word.getLsbD 60) := by
    ext index inField
    obtain rfl : index = 0 := Nat.lt_one_iff.mp inField
    simp
  rw [isFree_eq, ← BitVec.toNat_ofBool, ← isBit]
  rfl

theorem setIndex_word (index : UInt32) :
    (self.setIndex index).word = indexField.set self.word index.toNat := by
  have isSet := @toBitVec_set kIndexSetMask 0 self.handle indexField (by decide) rfl
    (by decide) index.toUInt64 index.toNat_lt
  rw [UInt64.shiftLeft_zero] at isSet
  rw [setIndex, if_pos (UInt32.le_iff_toNat_le.mpr (Nat.le_of_lt_succ index.toNat_lt))]
  exact isSet

theorem setGeneration_word {generation : UInt16} (fits : generation ≤ kGenerationMax) :
    (self.setGeneration generation).word =
      generationField.set self.word generation.toNat := by
  rw [setGeneration, if_neg (UInt16.not_lt.mpr fits)]
  exact toBitVec_set generationField (by decide) (by decide) (by decide)
    (Nat.lt_succ_of_le (UInt16.le_iff_toNat_le.mp fits))

theorem setCustom_word (custom : UInt8) :
    (self.setCustom custom).word = customField.set self.word custom.toNat :=
  toBitVec_set customField (by decide) (by decide) (by decide) custom.toNat_lt

theorem setResourceType_word (type : UInt8) :
    (self.setResourceType type).word = typeField.set self.word type.toNat :=
  toBitVec_set typeField (by decide) (by decide) (by decide) type.toNat_lt

theorem setReserved_word {reserved : UInt8} (fits : reserved < 8) :
    (self.setReserved reserved).word = reservedField.set self.word reserved.toNat :=
  toBitVec_set reservedField (by decide) (by decide) (by decide)
    (UInt8.lt_iff_toNat_lt.mp fits)

theorem setFree_word (flag : Bool) :
    (self.setFree flag).word = freeField.set self.word flag.toNat := by
  have cleared : (~~~(1 <<< (kHandleBits - kReservedBits - 1)) : UInt64).toBitVec =
      ~~~freeField.mask := by
    decide
  change _ = (self.word &&& ~~~freeField.mask) |||
    (BitVec.ofNat 1 flag.toNat).setWidth 64 <<< 60
  rw [← cleared]
  cases flag with
  | false => simp [word, setFree]
  | true => rfl

/-- The fields of a handle. -/
@[ext]
structure Fields where
  index : UInt32
  generation : UInt16
  custom : UInt8
  resourceType : UInt8
  isFree : Bool
  reserved : UInt8
  deriving DecidableEq

def fields : Fields :=
  ⟨self.index, self.generation, self.custom, self.resourceType, self.isFree, self.reserved⟩

theorem fields_eq_iff {handle : ResourceHandle} {fields : Fields} :
    handle.fields = fields ↔
      indexField.get handle.word = fields.index.toNat ∧
      generationField.get handle.word = fields.generation.toNat ∧
      customField.get handle.word = fields.custom.toNat ∧
      typeField.get handle.word = fields.resourceType.toNat ∧
      freeField.get handle.word = fields.isFree.toNat ∧
      reservedField.get handle.word = fields.reserved.toNat := by
  have sameBool (first second : Bool) : first.toNat = second.toNat ↔ first = second := by
    cases first <;> cases second <;> decide
  rw [← toNat_index, ← toNat_generation, ← toNat_custom, ← toNat_resourceType,
    ← toNat_isFree, ← toNat_reserved, UInt32.toNat_inj, UInt16.toNat_inj, UInt8.toNat_inj,
    UInt8.toNat_inj, UInt8.toNat_inj, sameBool, Fields.ext_iff]
  rfl

theorem get_eq_fields :
    indexField.get self.word = self.fields.index.toNat ∧
    generationField.get self.word = self.fields.generation.toNat ∧
    customField.get self.word = self.fields.custom.toNat ∧
    typeField.get self.word = self.fields.resourceType.toNat ∧
    freeField.get self.word = self.fields.isFree.toNat ∧
    reservedField.get self.word = self.fields.reserved.toNat :=
  fields_eq_iff.mp rfl

theorem fields_setIndex (index : UInt32) :
    (self.setIndex index).fields = { self.fields with index := index } := by
  have fits : index.toNat % 2 ^ indexField.width = index.toNat :=
    Nat.mod_eq_of_lt index.toNat_lt
  rw [fields_eq_iff]
  simp (disch := decide) [setIndex_word, Field.get_set_of_apart, fits,
    get_eq_fields]

@[simp]
theorem index_setIndex (index : UInt32) : (self.setIndex index).index = index :=
  congrArg Fields.index (self.fields_setIndex index)

theorem fields_setGeneration {generation : UInt16} (small : generation ≤ kGenerationMax) :
    (self.setGeneration generation).fields =
      { self.fields with generation := generation } := by
  have fits : generation.toNat % 2 ^ generationField.width = generation.toNat :=
    Nat.mod_eq_of_lt (Nat.lt_succ_of_le (UInt16.le_iff_toNat_le.mp small))
  rw [fields_eq_iff]
  simp (disch := decide) [setGeneration_word self small,
    Field.get_set_of_apart, fits,
    get_eq_fields]

theorem fields_setCustom (custom : UInt8) :
    (self.setCustom custom).fields = { self.fields with custom := custom } := by
  have fits : custom.toNat % 2 ^ customField.width = custom.toNat :=
    Nat.mod_eq_of_lt custom.toNat_lt
  rw [fields_eq_iff]
  simp (disch := decide) [setCustom_word, Field.get_set_of_apart, fits,
    get_eq_fields]

theorem fields_setResourceType (type : UInt8) :
    (self.setResourceType type).fields = { self.fields with resourceType := type } := by
  have fits : type.toNat % 2 ^ typeField.width = type.toNat :=
    Nat.mod_eq_of_lt type.toNat_lt
  rw [fields_eq_iff]
  simp (disch := decide) [setResourceType_word, Field.get_set_of_apart, fits,
    get_eq_fields]

theorem fields_setReserved {reserved : UInt8} (small : reserved < 8) :
    (self.setReserved reserved).fields = { self.fields with reserved := reserved } := by
  have fits : reserved.toNat % 2 ^ reservedField.width = reserved.toNat :=
    Nat.mod_eq_of_lt (UInt8.lt_iff_toNat_lt.mp small)
  rw [fields_eq_iff]
  simp (disch := decide) [setReserved_word self small, Field.get_set_of_apart, fits,
    get_eq_fields]

theorem fields_setFree (flag : Bool) :
    (self.setFree flag).fields = { self.fields with isFree := flag } := by
  have fits : flag.toNat % 2 ^ freeField.width = flag.toNat :=
    Nat.mod_eq_of_lt flag.toNat_lt
  rw [fields_eq_iff]
  simp (disch := decide) [setFree_word, Field.get_set_of_apart, fits,
    get_eq_fields]

theorem generation_le : self.generation ≤ kGenerationMax := by
  rw [UInt16.le_iff_toNat_le, toNat_generation]
  exact Nat.le_of_lt_succ (generationField.get_lt _)

/-- Generations are counted modulo their number. -/
theorem fields_newGeneration :
    self.newGeneration.fields =
      { self.fields with
        generation := UInt16.ofNat ((self.generation.toNat + 1) % 4096) } := by
  have bound : self.generation.toNat ≤ 4095 := UInt16.le_iff_toNat_le.mp self.generation_le
  have next : (if self.generation = kGenerationMax then 0 else self.generation + 1) =
      UInt16.ofNat ((self.generation.toNat + 1) % 4096) := by
    apply UInt16.toNat_inj.mp
    rw [UInt16.toNat_ofNat', Nat.mod_eq_of_lt (by omega)]
    split
    next isLast =>
      rw [isLast]
      decide
    next notLast =>
      have differs : self.generation.toNat ≠ 4095 := fun same =>
        notLast (UInt16.toNat_inj.mp (same.trans (by decide)))
      rw [UInt16.toNat_add, UInt16.toNat_one]
      omega
  have small : UInt16.ofNat ((self.generation.toNat + 1) % 4096) ≤ kGenerationMax := by
    rw [UInt16.le_iff_toNat_le, UInt16.toNat_ofNat', Nat.mod_eq_of_lt (by omega)]
    exact Nat.le_of_lt_succ (Nat.mod_lt _ (by decide))
  have isSet : self.newGeneration =
      self.setGeneration (UInt16.ofNat ((self.generation.toNat + 1) % 4096)) := by
    rw [newGeneration, setGeneration, if_neg (UInt16.not_lt.mpr small), next]
  rw [isSet, fields_setGeneration self small]

theorem fields_make (index : UInt32) (type : UInt8) :
    (make index type).fields = ⟨index, 0, 0, type, false, 0⟩ := by
  simp [make, fields_setFree, fields_setReserved, fields_setCustom, fields_setGeneration,
    fields_setResourceType, fields_setIndex]

/-- The fields of a handle, the highest one first. -/
def ranks : List Nat :=
  [self.reserved.toNat, self.isFree.toNat, self.resourceType.toNat, self.custom.toNat,
    self.generation.toNat, self.index.toNat]

/-- The fields of a word, the highest one first. -/
def layout : List (Field 64) :=
  [reservedField, freeField, typeField, customField, generationField, indexField]

theorem layout_stacked : Stacked 64 layout :=
  ⟨rfl, rfl, rfl, rfl, rfl, rfl, rfl⟩

theorem ranks_eq_values : self.ranks = values layout self.word := by
  simp [ranks, values, layout, toNat_index, toNat_generation, toNat_custom,
    toNat_resourceType, toNat_isFree, toNat_reserved]

/-- Handles are compared by their fields: the reserved bits, the free bit, the type, the
custom bits, the generation and the index. -/
theorem lt_iff_ranks_lt (first second : ResourceHandle) :
    first < second ↔ first.ranks < second.ranks := by
  rw [ranks_eq_values, ranks_eq_values, ← lt_iff_values_lt layout_stacked]
  exact UInt64.lt_iff_toBitVec_lt

/-- Nothing but its fields is in a handle. -/
theorem eq_of_fields_eq {first second : ResourceHandle}
    (same : first.fields = second.fields) : first = second := by
  have sameRanks : first.ranks = second.ranks := by
    simp only [fields, Fields.mk.injEq] at same
    simp only [ranks, same]
  rw [ranks_eq_values, ranks_eq_values] at sameRanks
  have sameWord := eq_of_values_eq layout_stacked sameRanks
  exact congrArg ResourceHandle.mk (UInt64.toBitVec_inj.mp sameWord)

end ResourceHandle

end Nova

end Blocxxi
