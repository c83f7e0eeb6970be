import Blocxxi.BlockFormat
import Blocxxi.CursorSpelling

/-!
# Parsing undoes serialization

Every reader of the block parser reads the bytes of what it is for: numbers,
scripts, inputs, outputs, witnesses and transactions, each out of the ones
before.  All lengths are those of parts of the payload, so no sum leaves the
range of the machine.
-/

namespace Blocxxi

namespace Bitcoin

open Cxx ByteText CursorReader CursorReader.Reader ListParts

theorem littleEndian_append (first second : ByteString) :
    littleEndian (first ++ second) =
      littleEndian first + 256 ^ first.length * littleEndian second := by
  induction first with
  | nil => simp [littleEndian]
  | cons byte first induction =>
      rw [List.cons_append, littleEndian, induction, littleEndian,
        List.length_cons, Nat.pow_succ']
      ring

@[simp]
theorem littleEndianBytes_length (value : UInt64) (width : Nat) :
    (littleEndianBytes value width).length = width := by
  simp [littleEndianBytes]

theorem littleEndianBytes_succ (value : UInt64) (width : Nat) :
    littleEndianBytes value (width + 1) = littleEndianBytes value width ++
      [((value >>> UInt64.ofNat (width * 8)) &&& 0xFF).toUInt8] := by
  simp [littleEndianBytes, List.range_succ]

/-- The byte of a number at an index. -/
theorem shiftedByte_toNat (value : UInt64) {index : Nat} (small : index < 8) :
    ((value >>> UInt64.ofNat (index * 8)) &&& 0xFF).toUInt8.toNat =
      value.toNat / 256 ^ index % 256 := by
  have power : 2 ^ (index * 8) = 256 ^ index := by
    rw [Nat.mul_comm, Nat.pow_mul]
  have shift : index * 8 % 2 ^ 64 % 64 = index * 8 := by omega
  have low : (value.toNat / 256 ^ index) &&& 255 =
      value.toNat / 256 ^ index % 256 := Nat.and_two_pow_sub_one_eq_mod _ 8
  rw [UInt64.toNat_toUInt8, UInt64.toNat_and, UInt64.toNat_shiftRight,
    UInt64.toNat_ofNat', shift, Nat.shiftRight_eq_div_pow, power]
  change ((value.toNat / 256 ^ index) &&& 255) % 256 = _
  rw [low, Nat.mod_mod]

theorem littleEndian_littleEndianBytes (value : UInt64) {width : Nat}
    (narrow : width ≤ 8) :
    littleEndian (littleEndianBytes value width) = value.toNat % 256 ^ width := by
  induction width with
  | zero => simp [littleEndianBytes, littleEndian, Nat.mod_one]
  | succ width induction =>
      have last : littleEndian
          [((value >>> UInt64.ofNat (width * 8)) &&& 0xFF).toUInt8] =
          value.toNat / 256 ^ width % 256 := by
        simp only [littleEndian, Nat.mul_zero, Nat.add_zero]
        exact shiftedByte_toNat value (by omega)
      rw [littleEndianBytes_succ, littleEndian_append, littleEndianBytes_length,
        induction (by omega), last, Nat.mod_pow_succ]

theorem littleEndian_lt (bytes : ByteString) :
    littleEndian bytes < 256 ^ bytes.length := by
  induction bytes with
  | nil => simp [littleEndian]
  | cons byte rest induction =>
      have small := byte.toNat_lt
      rw [littleEndian, List.length_cons, Nat.pow_succ]
      omega

/-- Strings of one length that denote the same number are the same. -/
theorem littleEndian_injective {first second : ByteString}
    (lengths : first.length = second.length)
    (same : littleEndian first = littleEndian second) : first = second := by
  induction first generalizing second with
  | nil => exact (List.eq_nil_of_length_eq_zero lengths.symm).symm
  | cons byte rest induction =>
      cases second with
      | nil => simp at lengths
      | cons other others =>
          have byteLt := byte.toNat_lt
          have otherLt := other.toNat_lt
          simp only [littleEndian] at same
          have sameByte : byte = other := UInt8.toNat_inj.mp (by omega)
          have sameRest : littleEndian rest = littleEndian others := by omega
          rw [sameByte, induction (by simpa using lengths) sameRest]

/-- The bytes of the number that some bytes denote are those bytes. -/
theorem littleEndianBytes_littleEndian {bytes : ByteString} (short : bytes.length ≤ 7) :
    littleEndianBytes (UInt64.ofNat (littleEndian bytes)) bytes.length = bytes := by
  apply littleEndian_injective (littleEndianBytes_length _ _)
  have bounded := littleEndian_lt bytes
  have power : 256 ^ bytes.length ≤ 256 ^ 7 := Nat.pow_le_pow_right (by decide) short
  rw [littleEndian_littleEndianBytes _ (by omega), UInt64.toNat_ofNat',
    Nat.mod_eq_of_lt (by omega : littleEndian bytes < 2 ^ 64), Nat.mod_eq_of_lt bounded]

theorem compactSizeBytes_ne_nil (value : UInt64) : compactSizeBytes value ≠ [] := by
  unfold compactSizeBytes
  split_ifs <;> exact List.cons_ne_nil _ _

/-- The first byte of a count is zero for no items only. -/
theorem compactSizeBytes_head {value : UInt64} (nonzero : value ≠ 0) :
    ∃ first rest, compactSizeBytes value = first :: rest ∧ first ≠ 0 := by
  unfold compactSizeBytes
  split_ifs with small
  · refine ⟨_, _, rfl, ?_⟩
    intro isZero
    apply nonzero
    have narrow : value.toNat < 253 := UInt64.lt_iff_toNat_lt.mp small
    have low := congrArg UInt8.toNat isZero
    rw [UInt64.toNat_toUInt8] at low
    apply UInt64.toNat_inj.mp
    change value.toNat % 256 = 0 at low
    change value.toNat = 0
    omega
  · exact ⟨_, _, rfl, by decide⟩
  · exact ⟨_, _, rfl, by decide⟩
  · exact ⟨_, _, rfl, by decide⟩

section Fields

variable {payload : Span UInt8}

theorem bytesAt_part {start : Nat} {part : ByteString}
    (stands : PartAt payload.items start part) :
    bytesAt payload start part.length = part :=
  stands.take_drop

theorem byteAt_part {start : Nat} {first : UInt8} {rest : ByteString}
    (stands : PartAt payload.items start (first :: rest)) :
    byteAt payload start = first := by
  rw [byteAt, List.getD_eq_getElem?_getD, stands.getElem?_eq, Option.getD_some]

theorem part_inside {start : Nat} {part : ByteString}
    (stands : PartAt payload.items start part) :
    start + part.length ≤ payload.size :=
  stands.inside

theorem reads_readBytes {bytes : ByteString} {width : Nat}
    (isWidth : bytes.length = width) :
    Reads payload.items (readBytes payload width) bytes () := by
  intro start stands
  have sizeFits := payload.size_lt
  rw [← isWidth]
  exact readsAt_demand Stop.rejected (readsAt_advance (by omega) (part_inside stands))

theorem reads_readLittleEndian (bytes : ByteString) :
    Reads payload.items (readLittleEndian payload bytes.length) bytes
      (some (UInt64.ofNat (littleEndian bytes))) := by
  intro start stands
  have sizeFits := payload.size_lt
  refine readsAt_bind (readsAt_position start) ?_
  refine readsAt_bind (readsAt_advance (by omega) (part_inside stands)) ?_
  rw [if_pos rfl, bytesAt_part stands]
  exact readsAt_pure _ _

/-- A number that fits its width is read again. -/
theorem reads_number {value : UInt64} {width : Nat} (narrow : width ≤ 8)
    (fits : value.toNat < 256 ^ width) :
    Reads payload.items (readLittleEndian payload width)
      (littleEndianBytes value width) (some value) := by
  have reads : Reads payload.items
      (readLittleEndian payload (littleEndianBytes value width).length)
      (littleEndianBytes value width)
      (some (UInt64.ofNat (littleEndian (littleEndianBytes value width)))) :=
    reads_readLittleEndian _
  rwa [littleEndianBytes_length, littleEndian_littleEndianBytes value narrow,
    Nat.mod_eq_of_lt fits, UInt64.ofNat_toNat] at reads

/-- A count is read from its first byte, or from the width that this byte
announces. -/
theorem reads_marked {first : UInt8} {rest : ByteString} {result : Option UInt64}
    (reads : Reads payload.items
      (if first < 253 then pure (some first.toUInt64)
        else readLittleEndian payload (compactWidth first)) rest result) :
    Reads payload.items (readCompactSize payload) (first :: rest) result := by
  intro start stands
  obtain ⟨-, standsRest⟩ := partAt_cons.mp stands
  have inside := part_inside stands
  rw [List.length_cons] at inside ⊢
  have sizeFits := payload.size_lt
  refine readsAt_bind (readsAt_position start) ?_
  rw [if_neg (by omega), byteAt_part stands, Nat.add_comm rest.length 1,
    ← Nat.add_assoc]
  exact readsAt_bind (readsAt_step (by omega)) (reads _ standsRest)

theorem reads_readCompactSize (value : UInt64) :
    Reads payload.items (readCompactSize payload) (compactSizeBytes value)
      (some value) := by
  unfold compactSizeBytes
  split_ifs with one two four
  · have narrow : value.toNat < 253 := UInt64.lt_iff_toNat_lt.mp one
    have same : value.toUInt8.toUInt64 = value := by
      apply UInt64.toNat_inj.mp
      rw [UInt8.toNat_toUInt64, UInt64.toNat_toUInt8]
      omega
    have small : value.toUInt8 < 253 := by
      apply UInt8.lt_iff_toNat_lt.mpr
      rw [UInt64.toNat_toUInt8]
      change value.toNat % 256 < 253
      omega
    apply reads_marked
    rw [if_pos small, same]
    exact reads_pure _
  · have fits : value.toNat < 256 ^ 2 :=
      Nat.lt_succ_of_le (UInt64.le_iff_toNat_le.mp two)
    exact reads_marked (reads_number (by decide) fits)
  · have fits : value.toNat < 256 ^ 4 :=
      Nat.lt_succ_of_le (UInt64.le_iff_toNat_le.mp four)
    exact reads_marked (reads_number (by decide) fits)
  · have fits : value.toNat < 256 ^ 8 := value.toNat_lt
    exact reads_marked (reads_number (by decide) fits)

theorem reads_readCount (value : UInt64) :
    Reads payload.items (readCount payload) (compactSizeBytes value) value :=
  reads_require Stop.rejected (reads_readCompactSize value)

/-- A script is part of the payload, so its length fits its count. -/
theorem reads_readScript (script : ByteString) :
    Reads payload.items (readScript payload) (scriptBytes script) () := by
  intro start stands
  have inside := part_inside stands
  have sizeFits := payload.size_lt
  rw [scriptBytes, List.length_append] at inside
  have sameLength : (UInt64.ofNat script.length).toNat = script.length := by
    rw [UInt64.toNat_ofNat']
    omega
  refine reads_bind (reads_readCount _) ?_ start stands
  rw [sameLength]
  exact reads_readBytes rfl

end Fields

section Counted

variable {payload : Span UInt8} {Item State : Type} {spell : Item → ByteString}
  {items : List Item}

theorem length_le_flatMap (nonempty : ∀ item, spell item ≠ []) :
    items.length ≤ (items.flatMap spell).length := by
  induction items with
  | nil => exact Nat.zero_le _
  | cons item items induction =>
      have positive := List.length_pos_iff.mpr (nonempty item)
      rw [List.flatMap_cons, List.length_append, List.length_cons]
      omega

/-- Items that are spelled in the payload are no more than it has bytes. -/
theorem count_toNat (nonempty : ∀ item, spell item ≠ []) {start : Nat}
    (stands : PartAt payload.items start (countedBytes spell items)) :
    (UInt64.ofNat items.length).toNat = items.length := by
  have inside := part_inside stands
  have few : items.length ≤ (items.flatMap spell).length :=
    length_le_flatMap nonempty
  have sizeFits := payload.size_lt
  rw [countedBytes, List.length_append] at inside
  rw [UInt64.toNat_ofNat']
  omega

/-- A count is read in front of so many items. -/
theorem reads_counted {Result : Type} {next : UInt64 → Reader Stop Result}
    {result : Result} (nonempty : ∀ item, spell item ≠ [])
    (reads : (UInt64.ofNat items.length).toNat = items.length →
      Reads payload.items (next (UInt64.ofNat items.length)) (items.flatMap spell)
        result) :
    Reads payload.items (readCount payload >>= next) (countedBytes spell items)
      result :=
  fun start stands => reads_bind (reads_readCount _)
    (reads (count_toNat nonempty stands)) start stands

theorem countedBytes_ne_nil (items : List Item) : countedBytes spell items ≠ [] :=
  List.append_ne_nil_of_left_ne_nil (compactSizeBytes_ne_nil _) _

theorem scriptBytes_ne_nil (script : ByteString) : scriptBytes script ≠ [] :=
  List.append_ne_nil_of_left_ne_nil (compactSizeBytes_ne_nil _) _

end Counted

section Parts

variable {payload : Span UInt8}

theorem TxInput.bytes_ne_nil (input : TxInput) : input.bytes ≠ [] :=
  List.append_ne_nil_of_right_ne_nil _
    (List.append_ne_nil_of_left_ne_nil (scriptBytes_ne_nil _) _)

theorem TxOutput.bytes_ne_nil (output : TxOutput) : output.bytes ≠ [] :=
  List.append_ne_nil_of_right_ne_nil _ (scriptBytes_ne_nil _)

theorem reads_readInput (input : TxInput) :
    Reads payload.items (readInput payload) input.bytes () := by
  refine reads_bind (reads_readBytes ?_) ?_
  · rw [List.length_append, input.previousHash.size_eq, littleEndianBytes_length]
  · refine reads_bind (reads_readScript input.script) (reads_readBytes ?_)
    exact littleEndianBytes_length _ 4

theorem reads_readOutput (output : TxOutput) (total : UInt64) :
    Reads payload.items (readOutput payload total) output.bytes
      (total + output.value) := by
  refine reads_bind (reads_require Stop.rejected
    (reads_number (by decide) output.value.toNat_lt)) ?_
  exact reads_map (reads_readScript output.script) _

theorem reads_readWitness (items : List ByteString) :
    Reads payload.items (readWitness payload) (countedBytes scriptBytes items) () := by
  refine reads_counted scriptBytes_ne_nil fun isLength => ?_
  rw [isLength]
  exact reads_iterate (fun _ _ => ())
    (fun script _ _ => reads_readScript script) ()

theorem reads_readInputs (inputs : List TxInput) :
    Reads payload.items (readInputs payload) (countedBytes TxInput.bytes inputs)
      (UInt64.ofNat inputs.length) := by
  refine reads_counted TxInput.bytes_ne_nil fun isLength => ?_
  rw [isLength]
  exact reads_map (reads_iterate (fun _ _ => ())
    (fun input _ _ => reads_readInput input) ()) _

/-- Adding values one after the other gives their sum. -/
theorem foldl_add {Item : Type} (amount : Item → Nat) (items : List Item)
    (total : UInt64) :
    items.foldl (fun total item => total + UInt64.ofNat (amount item)) total =
      total + UInt64.ofNat (items.map amount).sum := by
  induction items generalizing total with
  | nil => exact (UInt64.add_zero total).symm
  | cons item items induction =>
      rw [List.foldl_cons, induction, List.map_cons, List.sum_cons,
        UInt64.ofNat_add, UInt64.add_assoc]

theorem reads_readOutputs (transaction : WireTransaction) :
    Reads payload.items (readOutputs payload) transaction.outputBytes
      (UInt64.ofNat transaction.outputs.length,
        UInt64.ofNat transaction.outputTotal) := by
  refine reads_counted TxOutput.bytes_ne_nil fun isLength => ?_
  rw [isLength]
  have total := foldl_add (fun output : TxOutput => output.value.toNat)
    transaction.outputs 0
  simp only [UInt64.ofNat_toNat, UInt64.zero_add] at total
  rw [WireTransaction.outputTotal, ← total]
  exact reads_map (reads_iterate _
    (fun output _ total => reads_readOutput output total) 0) _

theorem readsAt_marked {start : Nat} {flag : UInt8} (flag_ne : flag ≠ 0)
    (stands : PartAt payload.items start [0, flag]) :
    ReadsAt (readWitnessFlag payload) start (start + 2) true := by
  have inside : start + 2 ≤ payload.size := part_inside stands
  have marker : byteAt payload start = 0 := byteAt_part stands
  have isFlag : byteAt payload (start + 1) = flag :=
    byteAt_part (partAt_cons.mp stands).2
  have sizeFits := payload.size_lt
  refine readsAt_bind (readsAt_position start) ?_
  refine readsAt_bind (readsAt_ask (by omega)) ?_
  rw [if_pos ⟨inside, marker, isFlag ▸ flag_ne⟩]
  exact readsAt_bind (readsAt_step (by omega)) (readsAt_pure _ true)

theorem readsAt_unmarked {start : Nat} (inside : start ≤ payload.size)
    (unmarked : byteAt payload start = 0 → byteAt payload (start + 1) = 0) :
    ReadsAt (readWitnessFlag payload) start start false := by
  have sizeFits := payload.size_lt
  refine readsAt_bind (readsAt_position start) ?_
  refine readsAt_bind (readsAt_ask (by omega)) ?_
  rw [if_neg fun marked => marked.2.2 (unmarked marked.2.1)]
  exact readsAt_pure start false

end Parts

namespace WireTransaction

variable (transaction : WireTransaction) (start : Nat)

/-- Where the parts of a transaction at a position start. -/
def inputsStart : Nat :=
  start + 4 + transaction.markerBytes.length

def outputsStart : Nat :=
  transaction.inputsStart start + transaction.inputBytes.length

def witnessStart : Nat :=
  transaction.outputsStart start + transaction.outputBytes.length

def lockTimeStart : Nat :=
  transaction.witnessStart start + transaction.witnessBytes.length

/-- What one pass over a transaction at a position finds. -/
def parts : TransactionParts where
  version := transaction.version.toUInt64
  versionRange := ⟨start, start + 4⟩
  hasWitness := transaction.witness.isSome
  inputCount := UInt64.ofNat transaction.inputs.length
  inputs := ⟨transaction.inputsStart start, transaction.outputsStart start⟩
  outputCount := UInt64.ofNat transaction.outputs.length
  outputTotal := UInt64.ofNat transaction.outputTotal
  outputs := ⟨transaction.outputsStart start, transaction.witnessStart start⟩

@[simp]
theorem versionBytes_length : transaction.versionBytes.length = 4 :=
  littleEndianBytes_length _ 4

@[simp]
theorem lockTimeBytes_length : transaction.lockTimeBytes.length = 4 :=
  littleEndianBytes_length _ 4

theorem start_add_length :
    start + transaction.bytes.length = transaction.lockTimeStart start + 4 := by
  simp only [bytes, List.length_append, versionBytes_length, lockTimeBytes_length,
    lockTimeStart, witnessStart, outputsStart, inputsStart]
  omega

theorem bytes_ne_nil : transaction.bytes ≠ [] := by
  apply List.append_ne_nil_of_left_ne_nil
  apply List.ne_nil_of_length_pos
  rw [versionBytes_length]
  decide

/-- A transaction in the payload, part by part. -/
structure StandsAt (payload : Span UInt8) : Prop where
  version : PartAt payload.items start transaction.versionBytes
  behindVersion : PartAt payload.items (start + 4)
    (transaction.markerBytes ++ (transaction.inputBytes ++
      (transaction.outputBytes ++ (transaction.witnessBytes ++
        transaction.lockTimeBytes))))
  inputs : PartAt payload.items (transaction.inputsStart start)
    transaction.inputBytes
  outputs : PartAt payload.items (transaction.outputsStart start)
    transaction.outputBytes
  witness : PartAt payload.items (transaction.witnessStart start)
    transaction.witnessBytes
  lockTime : PartAt payload.items (transaction.lockTimeStart start)
    transaction.lockTimeBytes

theorem standsAt {transaction : WireTransaction} {start : Nat} {payload : Span UInt8}
    (stands : PartAt payload.items start transaction.bytes) :
    transaction.StandsAt start payload := by
  obtain ⟨version, behindVersion⟩ := partAt_append.mp stands
  rw [versionBytes_length] at behindVersion
  obtain ⟨-, behindMarker⟩ := partAt_append.mp behindVersion
  obtain ⟨inputs, behindInputs⟩ := partAt_append.mp behindMarker
  obtain ⟨outputs, behindOutputs⟩ := partAt_append.mp behindInputs
  obtain ⟨witness, lockTime⟩ := partAt_append.mp behindOutputs
  exact ⟨version, behindVersion, inputs, outputs, witness, lockTime⟩

end WireTransaction

section Transactions

variable {payload : Span UInt8} {transaction : WireTransaction} {start : Nat}

/-- Without a witness the first count is not zero, or both counts are. -/
theorem unmarked_of_plain (stands : transaction.StandsAt start payload)
    (isPlain : transaction.witness = none) :
    byteAt payload (transaction.inputsStart start) = 0 →
      byteAt payload (transaction.inputsStart start + 1) = 0 := by
  by_cases noInputs : transaction.inputs = []
  · have noOutputs : transaction.outputs = [] :=
      (transaction.plain isPlain).resolve_left (absurd noInputs)
    have inputZero : transaction.inputBytes = [0] := by
      rw [WireTransaction.inputBytes, noInputs]
      rfl
    have outputZero : transaction.outputBytes = [0] := by
      rw [WireTransaction.outputBytes, noOutputs]
      rfl
    have outputs := stands.outputs
    rw [outputZero, WireTransaction.outputsStart, inputZero] at outputs
    exact fun _ => byteAt_part outputs
  · have isLength := count_toNat TxInput.bytes_ne_nil stands.inputs
    have nonzero : UInt64.ofNat transaction.inputs.length ≠ 0 := by
      intro isZero
      rw [isZero] at isLength
      exact noInputs (List.length_eq_zero_iff.mp isLength.symm)
    obtain ⟨first, rest, spelled, first_ne⟩ := compactSizeBytes_head nonzero
    have inputs := stands.inputs
    rw [WireTransaction.inputBytes, countedBytes, spelled, List.cons_append] at inputs
    intro isZero
    rw [byteAt_part inputs] at isZero
    exact absurd isZero first_ne

theorem readsAt_marker (stands : transaction.StandsAt start payload) :
    ReadsAt (readWitnessFlag payload) (start + 4) (transaction.inputsStart start)
      transaction.witness.isSome := by
  cases isWitness : transaction.witness with
  | none =>
      have here : transaction.inputsStart start = start + 4 := by
        rw [WireTransaction.inputsStart, WireTransaction.markerBytes, isWitness]
        rfl
      have inside := part_inside stands.inputs
      have unmarked := unmarked_of_plain stands isWitness
      rw [here] at inside unmarked ⊢
      exact readsAt_unmarked (by omega) unmarked
  | some witness =>
      have marker : transaction.markerBytes = [0, witness.flag] := by
        rw [WireTransaction.markerBytes, isWitness]
      have markerStands := stands.behindVersion.left
      rw [marker] at markerStands
      rw [WireTransaction.inputsStart, marker]
      exact readsAt_marked witness.flag_ne markerStands

theorem readsAt_witnesses (stands : transaction.StandsAt start payload) :
    ReadsAt (readWitnesses payload transaction.witness.isSome
        (UInt64.ofNat transaction.inputs.length))
      (transaction.witnessStart start) (transaction.lockTimeStart start) () := by
  have isLength := count_toNat TxInput.bytes_ne_nil stands.inputs
  have reads : Reads payload.items
      (readWitnesses payload transaction.witness.isSome
        (UInt64.ofNat transaction.inputs.length)) transaction.witnessBytes () := by
    unfold readWitnesses WireTransaction.witnessBytes
    cases transaction.witness with
    | none => exact reads_pure ()
    | some witness =>
        have sameLength := isLength.trans witness.perInput_length.symm
        change Reads payload.items (iterate (fun _ => readWitness payload)
          (UInt64.ofNat transaction.inputs.length).toNat ()) _ ()
        rw [sameLength]
        exact reads_iterate (fun _ _ => ())
          (fun items _ _ => reads_readWitness items) ()
  exact reads _ stands.witness

theorem readsAt_readParts (stands : transaction.StandsAt start payload) :
    ReadsAt (readParts payload) start (transaction.lockTimeStart start + 4)
      (transaction.parts start) := by
  have version : ReadsAt (require Stop.rejected (readLittleEndian payload 4)) start
      (start + 4) transaction.version.toUInt64 := by
    have fits : transaction.version.toUInt64.toNat < 256 ^ 4 := by
      rw [UInt32.toNat_toUInt64]
      exact transaction.version.toNat_lt
    have reads := reads_require Stop.rejected (reads_number (by decide) fits)
      start stands.version
    rwa [littleEndianBytes_length] at reads
  have lockTime : ReadsAt (readBytes payload 4) (transaction.lockTimeStart start)
      (transaction.lockTimeStart start + 4) () := by
    have reads := reads_readBytes transaction.lockTimeBytes_length
      (transaction.lockTimeStart start) stands.lockTime
    rwa [transaction.lockTimeBytes_length] at reads
  refine readsAt_bind (readsAt_spanned version) ?_
  refine readsAt_bind (readsAt_marker stands) ?_
  refine readsAt_bind (readsAt_spanned
    (reads_readInputs transaction.inputs _ stands.inputs)) ?_
  refine readsAt_bind (readsAt_spanned
    (reads_readOutputs transaction _ stands.outputs)) ?_
  refine readsAt_bind (readsAt_witnesses stands) ?_
  exact readsAt_bind lockTime (readsAt_pure _ _)

theorem readsAt_copyRange {first last : Nat} {part : ByteString} (place : Nat)
    (stands : PartAt payload.items first part) (isLast : last = first + part.length) :
    ReadsAt (copyRange payload ⟨first, last⟩) place place part := by
  have inside := part_inside stands
  have bytes : bytesAt payload first (last - first) = part := by
    rw [isLast, Nat.add_sub_cancel_left]
    exact bytesAt_part stands
  refine readsAt_bind (readsAt_copy Stop.invalidRange ?_ ?_) ?_
  · dsimp only
    omega
  · dsimp only
    omega
  · dsimp only
    rw [bytes]
    exact readsAt_pure place part

end Transactions

section Blocks

variable (doubleSha256 : ByteString → Hash256) {payload : Span UInt8}

/-- The metadata with one more transaction. -/
def recordTransaction (metadata : BlockMetadata) (transaction : WireTransaction) :
    BlockMetadata :=
  { metadata with
    transactionSizes := metadata.transactionSizes ++ [transaction.bytes.length]
    transactionVersions := metadata.transactionVersions ++ [transaction.version]
    transactionInputCounts := metadata.transactionInputCounts ++
      [UInt64.ofNat transaction.inputs.length]
    transactionOutputCounts := metadata.transactionOutputCounts ++
      [UInt64.ofNat transaction.outputs.length]
    transactionOutputValues := metadata.transactionOutputValues ++
      [UInt64.ofNat transaction.outputTotal]
    totalOutputValue :=
      metadata.totalOutputValue + UInt64.ofNat transaction.outputTotal
    transactionHasWitness := metadata.transactionHasWitness ++
      [transaction.witness.isSome]
    transactionWitnessIds := metadata.transactionWitnessIds ++
      [shownHash (doubleSha256 transaction.bytes)]
    transactionIds := metadata.transactionIds ++
      [shownHash (doubleSha256 transaction.strippedBytes)] }

theorem reads_readTransaction (transaction : WireTransaction)
    (metadata : BlockMetadata) :
    Reads payload.items (readTransaction doubleSha256 payload metadata)
      transaction.bytes (recordTransaction doubleSha256 metadata transaction) := by
  intro start whole
  have stands := WireTransaction.standsAt whole
  have size := transaction.start_add_length start
  have sizeFits := payload.size_lt
  have inside := part_inside whole
  have wholeSize : sizeSub (transaction.lockTimeStart start + 4) start =
      transaction.bytes.length := by
    rw [← size, sizeSub_of_le (by omega) (by omega), Nat.add_sub_cancel_left]
  have lockTimeStart : sizeSub (transaction.lockTimeStart start + 4) 4 =
      transaction.lockTimeStart start := by
    rw [sizeSub_of_le (by omega) (by omega), Nat.add_sub_cancel]
  rw [size]
  refine readsAt_bind (readsAt_spanned (readsAt_readParts stands)) ?_
  refine readsAt_bind (readsAt_copyRange _ whole size.symm) ?_
  refine readsAt_bind (readsAt_copyRange _ stands.version ?_) ?_
  · rw [transaction.versionBytes_length]
  refine readsAt_bind (readsAt_copyRange _ stands.inputs rfl) ?_
  refine readsAt_bind (readsAt_copyRange _ stands.outputs rfl) ?_
  dsimp only
  rw [lockTimeStart, wholeSize]
  refine readsAt_bind (readsAt_copyRange _ stands.lockTime ?_) ?_
  · rw [transaction.lockTimeBytes_length]
  have version : transaction.version.toUInt64.toUInt32 = transaction.version :=
    UInt32.toUInt32_toUInt64 _
  dsimp only [WireTransaction.parts]
  rw [version]
  exact readsAt_pure _ _

/-- What a list of transactions adds to the metadata. -/
theorem foldl_recordTransaction (transactions : List WireTransaction)
    (metadata : BlockMetadata) :
    transactions.foldl (recordTransaction doubleSha256) metadata =
      { metadata with
        transactionSizes := metadata.transactionSizes ++
          transactions.map fun transaction => transaction.bytes.length
        transactionVersions := metadata.transactionVersions ++
          transactions.map WireTransaction.version
        transactionInputCounts := metadata.transactionInputCounts ++
          transactions.map fun transaction =>
            UInt64.ofNat transaction.inputs.length
        transactionOutputCounts := metadata.transactionOutputCounts ++
          transactions.map fun transaction =>
            UInt64.ofNat transaction.outputs.length
        transactionOutputValues := metadata.transactionOutputValues ++
          transactions.map fun transaction => UInt64.ofNat transaction.outputTotal
        totalOutputValue := metadata.totalOutputValue +
          UInt64.ofNat (transactions.map WireTransaction.outputTotal).sum
        transactionHasWitness := metadata.transactionHasWitness ++
          transactions.map fun transaction => transaction.witness.isSome
        transactionWitnessIds := metadata.transactionWitnessIds ++
          transactions.map fun transaction =>
            shownHash (doubleSha256 transaction.bytes)
        transactionIds := metadata.transactionIds ++
          transactions.map fun transaction =>
            shownHash (doubleSha256 transaction.strippedBytes) } := by
  induction transactions generalizing metadata with
  | nil => simp
  | cons transaction transactions induction =>
      rw [List.foldl_cons, induction]
      simp [recordTransaction, UInt64.ofNat_add, UInt64.add_assoc]

variable (block : WireBlock)

theorem bytesAt_header (isBytes : payload.items = block.bytes) {offset width : Nat}
    (inside : offset + width ≤ 80) :
    bytesAt payload offset width = block.headerBytes offset width := by
  have length := block.header_length
  rw [bytesAt, isBytes, WireBlock.bytes, WireBlock.headerBytes,
    List.drop_append_of_le_length (by omega),
    List.take_append_of_le_length (by rw [List.length_drop]; omega)]

theorem blockHeaderFields_eq (isBytes : payload.items = block.bytes) :
    blockHeaderFields doubleSha256 payload =
      { blockHashHex := shownHash (doubleSha256 block.header)
        previousHashHex := wireHashToHex (block.headerBytes 4 32)
        merkleRootHex := wireHashToHex (block.headerBytes 36 32)
        version := UInt32.ofNat (littleEndian (block.headerBytes 0 4))
        timestamp := UInt32.ofNat (littleEndian (block.headerBytes 68 4))
        nonce := UInt32.ofNat (littleEndian (block.headerBytes 76 4)) } := by
  have wholeHeader : block.headerBytes 0 80 = block.header := by
    rw [WireBlock.headerBytes, List.drop_zero,
      List.take_of_length_le block.header_length.le]
  unfold blockHeaderFields
  have atHeader : ∀ offset width, offset + width ≤ 80 →
      bytesAt payload offset width = block.headerBytes offset width :=
    fun offset width inside => bytesAt_header block isBytes inside
  rw [atHeader 0 4 (by decide), atHeader 68 4 (by decide), atHeader 76 4 (by decide),
    atHeader 4 32 (by decide), atHeader 36 32 (by decide), atHeader 0 80 (by decide),
    wholeHeader]
  rfl

/-- The parser reads the transactions behind the header. -/
theorem parseRun_bytes (isBytes : payload.items = block.bytes) :
    (parseRun doubleSha256 payload sizeAdd).1 =
      .ok (block.transactions.foldl (recordTransaction doubleSha256)
        { blockHeaderFields doubleSha256 payload with
          transactionCount := UInt64.ofNat block.transactions.length }) := by
  have stands : PartAt payload.items 80
      (countedBytes WireTransaction.bytes block.transactions) := by
    refine ⟨block.header, [], ?_, block.header_length⟩
    rw [isBytes, List.append_nil]
    rfl
  have counted : 0 < (countedBytes WireTransaction.bytes block.transactions).length :=
    List.length_pos_iff.mpr (countedBytes_ne_nil _)
  have inside := part_inside stands
  have reads : Reads payload.items (readBlock doubleSha256 payload)
      (countedBytes WireTransaction.bytes block.transactions)
      (block.transactions.foldl (recordTransaction doubleSha256)
        { blockHeaderFields doubleSha256 payload with
          transactionCount := UInt64.ofNat block.transactions.length }) := by
    refine reads_counted WireTransaction.bytes_ne_nil fun isLength => ?_
    rw [isLength]
    exact reads_iterate _ (fun transaction _ metadata =>
      reads_readTransaction doubleSha256 transaction metadata) _
  unfold parseRun
  rw [if_neg (by omega)]
  exact (reads 80 stands afterHeader rfl).1

/-- The root is compared as text, which is the same as comparing bytes. -/
theorem finishMetadata_shown {hashes : List Hash256} (nonempty : hashes ≠ [])
    {metadata : BlockMetadata}
    (ids : metadata.transactionIds = hashes.map shownHash) {stored : ByteString}
    (isStored : metadata.merkleRootHex = wireHashToHex stored) :
    finishMetadata doubleSha256 metadata = some { metadata with
      merkleRootMatches := merkleRoot doubleSha256 hashes = some stored } := by
  obtain ⟨top, isTop⟩ := Option.isSome_iff_exists.mp
    (merkleRoot_isSome doubleSha256 nonempty)
  have sameText : wireHashToHex top = wireHashToHex stored ↔
      some top = some stored := by
    rw [wireHashToHex_injective.eq_iff, Option.some_inj]
  unfold finishMetadata
  rw [ids, computeMerkleRootHex_shown, isTop, isStored]
  simp only [Option.map_some, Option.bind_eq_bind, Option.bind_some, sameText]

theorem parse_bytes (isBytes : payload.items = block.bytes) :
    parseBlockMetadata doubleSha256 payload =
      .ok (some (block.metadata doubleSha256)) := by
  have nonempty : block.hashes doubleSha256 ≠ [] := by
    simpa [WireBlock.hashes] using block.nonempty
  unfold parseBlockMetadata
  rw [parseRun_bytes doubleSha256 block isBytes, foldl_recordTransaction,
    blockHeaderFields_eq doubleSha256 block isBytes]
  dsimp only
  rw [finishMetadata_shown doubleSha256 nonempty (by simp [WireBlock.hashes]) rfl]
  simp [WireBlock.metadata, WireBlock.hashes]

end Blocks

/-- For every block whose bytes fit a payload, and whatever is used to hash, the
parser accepts the bytes and tells what there is to tell about the block. -/
theorem parseBlockMetadata_undoes_bytes (doubleSha256 : ByteString → Hash256)
    (block : WireBlock) (fits : block.bytes.length < 2 ^ 63) :
    parseBlockMetadata doubleSha256 ⟨block.bytes, fits⟩ =
      .ok (some (block.metadata doubleSha256)) :=
  parse_bytes doubleSha256 block rfl

/-- A transaction with a witness and one without, of two outputs and none. -/
def mixedBlock : WireBlock where
  header := List.replicate 80 7
  header_length := List.length_replicate
  transactions :=
    [{ version := 2
       inputs := [⟨Hash.zero, 0xFFFFFFFF, [0x51], 0xFFFFFFFF⟩]
       outputs := [⟨5000000000, [0x51]⟩, ⟨0, []⟩]
       witness := some ⟨1, [[[1, 2, 3], []]], by decide, rfl⟩
       lockTime := 0
       plain := nofun },
      { version := 1
        inputs := [⟨Hash.zero, 1, [], 0⟩]
        outputs := []
        witness := none
        lockTime := 500
        plain := fun _ => Or.inl (List.cons_ne_nil _ _) }]
  nonempty := List.cons_ne_nil _ _

theorem mixedBlock_fits : mixedBlock.bytes.length < 2 ^ 63 := by
  decide +kernel

theorem parseBlockMetadata_undoes_mixedBlock :
    parseBlockMetadata (fun _ => Hash.zero) ⟨mixedBlock.bytes, mixedBlock_fits⟩ =
      .ok (some (mixedBlock.metadata fun _ => Hash.zero)) :=
  parseBlockMetadata_undoes_bytes (fun _ => Hash.zero) mixedBlock mixedBlock_fits

end Bitcoin

end Blocxxi
