import Blocxxi.BlockMetadata

/-!
# The cursor of the block parser

Where every sum of cursor and count fits in 64 bits, the parser on the machine
is the parser of the format: its cursor moves forward inside the payload, every
range it copies is a range of the payload, and it makes no more consuming
passes than there are bytes.  A script length that does not fit takes the
cursor backwards instead of ending the parse.
-/

namespace Blocxxi

namespace Bitcoin

open Cxx ByteText CursorReader CursorReader.Reader

/-- The safety of a cursor that walked through a payload. -/
structure CursorSafe (payload : Span UInt8) (cursor : Cursor) : Prop where
  moves : ∀ move ∈ cursor.moves, move.Forward payload.size
  copies : ∀ copy ∈ cursor.copies, copy.Inside payload.size
  passes : consuming cursor.passes ≤ payload.size

/-- Every field that the format finds in the payload ends, counted without
wrapping, within 64 bits. -/
def LengthsFit (doubleSha256 : ByteString → Hash256) (payload : Span UInt8) :
    Prop :=
  (parseRun doubleSha256 payload (· + ·)).2.Small

section Readers

variable {payload : Span UInt8} {cursor : Cursor}

theorem safeAt_readLittleEndian (inside : cursor.offset ≤ payload.size)
    {width : Nat} (narrow : width < 2 ^ 64) :
    SafeAt payload.size (readLittleEndian payload width) cursor := by
  refine safeAt_bind (safeAt_position inside) fun start after started => ?_
  cases started
  refine safeAt_then (safeAt_advance payload.size_lt inside narrow) ?_
  exact fun complete after _ advanced => safeAt_pure advanced _

theorem compactWidth_le (first : UInt8) : compactWidth first ≤ 8 := by
  unfold compactWidth
  split_ifs <;> omega

theorem safeAt_readCompactSize (inside : cursor.offset ≤ payload.size) :
    SafeAt payload.size (readCompactSize payload) cursor := by
  refine safeAt_bind (safeAt_position inside) fun offset after started => ?_
  cases started
  by_cases ended : payload.size ≤ cursor.offset
  · rw [if_pos ended]
    exact safeAt_pure inside none
  · rw [if_neg ended]
    have stepInside : cursor.offset + 1 ≤ payload.size := by omega
    refine safeAt_then (safeAt_step payload.size_lt stepInside) ?_
    intro _ after _ stepped
    dsimp only
    split
    · exact safeAt_pure stepped _
    · apply safeAt_readLittleEndian stepped
      have narrow := compactWidth_le (byteAt payload cursor.offset)
      omega

theorem safeAt_readCount (inside : cursor.offset ≤ payload.size) :
    SafeAt payload.size (readCount payload) cursor :=
  safeAt_require (safeAt_readCompactSize inside)

theorem safeAt_readBytes (inside : cursor.offset ≤ payload.size) {count : Nat}
    (narrow : count < 2 ^ 64) :
    SafeAt payload.size (readBytes payload count) cursor :=
  safeAt_demand (safeAt_advance payload.size_lt inside narrow)

theorem safeAt_readWitnessFlag (inside : cursor.offset ≤ payload.size) :
    SafeAt payload.size (readWitnessFlag payload) cursor := by
  refine safeAt_bind (safeAt_position inside) fun offset after started => ?_
  cases started
  have sizeFits := payload.size_lt
  refine safeAt_bind (safeAt_ask inside (by omega)) fun stop after asked => ?_
  cases asked
  dsimp only
  split
  · rename_i present
    refine safeAt_then (safeAt_step payload.size_lt present.1) ?_
    exact fun _ after _ stepped => safeAt_pure stepped true
  · refine safeAt_pure ?_ false
    exact inside

theorem safeAt_readScript (inside : cursor.offset ≤ payload.size) :
    SafeAt payload.size (readScript payload) cursor := by
  refine safeAt_then (safeAt_readCount inside) fun size after _ counted => ?_
  exact safeAt_readBytes counted size.toNat_lt

theorem quiet_readLittleEndian (width : Nat) :
    Quiet (readLittleEndian payload width) :=
  quiet_bind quiet_position fun _ => quiet_bind (quiet_advance _ _)
    fun _ => quiet_pure _

theorem quiet_readCompactSize : Quiet (readCompactSize payload) := by
  refine quiet_bind quiet_position fun offset => ?_
  split
  · exact quiet_pure none
  · refine quiet_bind (quiet_step 1) fun _ => ?_
    dsimp only
    split
    · exact quiet_pure _
    · exact quiet_readLittleEndian _

theorem quiet_readCount : Quiet (readCount payload) :=
  quiet_require quiet_readCompactSize

theorem quiet_readScript : Quiet (readScript payload) :=
  quiet_bind quiet_readCount fun _ => quiet_demand (quiet_advance _ _)

theorem readLittleEndian_arrives {width : Nat} {value : UInt64} {after : Cursor}
    (arrived : (readLittleEndian payload width).exactly cursor =
      (.ok (some value), after)) :
    after.offset = cursor.offset + width := by
  obtain ⟨start, before, started, rest⟩ := bind_ok arrived
  cases started
  obtain ⟨complete, between, advanced, finished⟩ := bind_ok rest
  cases complete <;> cases finished
  exact advance_arrives advanced

theorem readCompactSize_arrives {value : UInt64} {after : Cursor}
    (arrived : (readCompactSize payload).exactly cursor =
      (.ok (some value), after)) :
    cursor.offset < after.offset := by
  obtain ⟨offset, before, started, rest⟩ := bind_ok arrived
  cases started
  split at rest
  · cases rest
  · obtain ⟨_, between, stepped, rest⟩ := bind_ok rest
    cases stepped
    dsimp only at rest
    split at rest
    · cases rest
      exact Nat.lt_succ_self _
    · rw [readLittleEndian_arrives rest]
      dsimp only
      omega

theorem readCount_arrives {value : UInt64} {after : Cursor}
    (arrived : (readCount payload).exactly cursor = (.ok value, after)) :
    cursor.offset < after.offset :=
  readCompactSize_arrives (require_arrives arrived)

theorem readBytes_arrives {count : Nat} {after : Cursor}
    (arrived : (readBytes payload count).exactly cursor = (.ok (), after)) :
    after.offset = cursor.offset + count :=
  advance_arrives (demand_arrives arrived)

theorem paysAt_readCount (inside : cursor.offset ≤ payload.size) :
    PaysAt payload.size (readCount payload) cursor :=
  (safeAt_readCount inside).pays quiet_readCount

theorem paysAt_readScript (inside : cursor.offset ≤ payload.size) :
    PaysAt payload.size (readScript payload) cursor :=
  (safeAt_readScript inside).pays quiet_readScript

theorem paysAt_readInput (inside : cursor.offset ≤ payload.size) :
    PaysAt payload.size (readInput payload) cursor := by
  refine SafeAt.pays ?_ ?_
  · refine safeAt_then (safeAt_readBytes inside (by decide)) ?_
    intro _ first _ outpoint
    refine safeAt_then (safeAt_readScript outpoint) fun _ second _ script => ?_
    exact safeAt_readBytes script (by decide)
  · exact quiet_bind (quiet_demand (quiet_advance _ _)) fun _ =>
      quiet_bind quiet_readScript fun _ => quiet_demand (quiet_advance _ _)

theorem paysAt_readOutput (inside : cursor.offset ≤ payload.size)
    (total : UInt64) : PaysAt payload.size (readOutput payload total) cursor := by
  refine SafeAt.pays ?_ ?_
  · refine safeAt_then
      (safeAt_require (safeAt_readLittleEndian inside (by decide))) ?_
    intro value first _ valued
    refine safeAt_then (safeAt_readScript valued) fun _ second _ script => ?_
    exact safeAt_pure script _
  · exact quiet_bind (quiet_require (quiet_readLittleEndian _)) fun _ =>
      quiet_bind quiet_readScript fun _ => quiet_pure _

/-- The count of the items pays for the pass over them. -/
theorem paysAt_readWitness (inside : cursor.offset ≤ payload.size) :
    PaysAt payload.size (readWitness payload) cursor := by
  refine paysAt_bind (paysAt_readCount inside) fun items after arrived => ?_
  refine ⟨(readCount_arrives arrived).ne', ?_⟩
  apply safeAt_iterate fun _ _ inside => paysAt_readScript inside
  exact ((safeAt_readCount inside).arrives arrived).2

theorem safeAt_readInputs (inside : cursor.offset ≤ payload.size) :
    SafeAt payload.size (readInputs payload) cursor := by
  refine safeAt_then (safeAt_readCount inside) fun count first _ counted => ?_
  refine safeAt_then (safeAt_iterate
    (fun _ _ inside => paysAt_readInput inside) _ _ _ counted) ?_
  exact fun _ second _ looped => safeAt_pure looped count

theorem safeAt_readOutputs (inside : cursor.offset ≤ payload.size) :
    SafeAt payload.size (readOutputs payload) cursor := by
  refine safeAt_then (safeAt_readCount inside) fun count first _ counted => ?_
  refine safeAt_then (safeAt_iterate
    (fun total _ inside => paysAt_readOutput inside total) _ _ _ counted) ?_
  exact fun total second _ looped => safeAt_pure looped (count, total)

theorem safeAt_readWitnesses (inside : cursor.offset ≤ payload.size)
    (hasWitness : Bool) (inputCount : UInt64) :
    SafeAt payload.size (readWitnesses payload hasWitness inputCount) cursor := by
  unfold readWitnesses
  split
  · exact safeAt_iterate (fun _ _ inside => paysAt_readWitness inside) _ _ _
      inside
  · exact safeAt_pure inside ()

theorem paysAt_readVersion (inside : cursor.offset ≤ payload.size) :
    PaysAt payload.size
      (spanned (require .rejected (readLittleEndian payload 4))) cursor :=
  PaysAt.spanned inside
    ((safeAt_require (safeAt_readLittleEndian inside (by decide))).pays
      (quiet_require (quiet_readLittleEndian 4)))

theorem readVersion_arrives {version : UInt64} {range : Copy} {after : Cursor}
    (arrived : (spanned (require .rejected
      (readLittleEndian payload 4))).exactly cursor =
        (.ok (version, range), after)) :
    after.offset = cursor.offset + 4 :=
  readLittleEndian_arrives (require_arrives (spanned_arrives arrived).1)

/-- The version pays for everything that follows in a transaction. -/
theorem paysAt_readParts (inside : cursor.offset ≤ payload.size) :
    PaysAt payload.size (readParts payload) cursor := by
  have pays := paysAt_readVersion inside
  refine paysAt_bind pays ?_
  rintro ⟨version, range⟩ after arrived
  have advanced := readVersion_arrives arrived
  refine ⟨by omega, ?_⟩
  have versioned := (pays.toSafeAt.arrives arrived).2
  refine safeAt_then (safeAt_readWitnessFlag versioned) ?_
  intro hasWitness first _ flagged
  refine safeAt_then (safeAt_spanned flagged (safeAt_readInputs flagged)) ?_
  rintro ⟨inputCount, inputs⟩ second _ inputsRead
  refine safeAt_then
    (safeAt_spanned inputsRead (safeAt_readOutputs inputsRead)) ?_
  rintro ⟨⟨outputCount, outputTotal⟩, outputs⟩ third _ outputsRead
  refine safeAt_then (safeAt_readWitnesses outputsRead _ _) ?_
  intro _ fourth _ witnessesRead
  refine safeAt_then (safeAt_readBytes witnessesRead (by decide)) ?_
  exact fun _ fifth _ locked => safeAt_pure locked _

/-- The ranges that were found lie in order in what was read. -/
theorem readParts_arrives (inside : cursor.offset ≤ payload.size)
    {parts : TransactionParts} {after : Cursor}
    (arrived : (readParts payload).exactly cursor = (.ok parts, after)) :
    cursor.offset + 4 ≤ after.offset ∧
      parts.versionRange.Inside payload.size ∧
      parts.inputs.Inside payload.size ∧ parts.outputs.Inside payload.size := by
  have whole := ((paysAt_readParts inside).toSafeAt.arrives arrived).2
  obtain ⟨⟨version, range⟩, first, versioned, rest⟩ := bind_ok arrived
  have advanced := readVersion_arrives versioned
  have safeVersion := (paysAt_readVersion inside).toSafeAt.arrives versioned
  obtain ⟨hasWitness, second, flagged, rest⟩ := bind_ok rest
  have safeFlag := (safeAt_readWitnessFlag safeVersion.2).arrives flagged
  obtain ⟨⟨inputCount, inputs⟩, third, inputsRead, rest⟩ := bind_ok rest
  have safeInputs := (safeAt_readInputs safeFlag.2).arrives
    (spanned_arrives inputsRead).1
  obtain ⟨⟨⟨outputCount, outputTotal⟩, outputs⟩, fourth, outputsRead,
    rest⟩ := bind_ok rest
  have safeOutputs := (safeAt_readOutputs safeInputs.2).arrives
    (spanned_arrives outputsRead).1
  obtain ⟨_, fifth, witnessesRead, rest⟩ := bind_ok rest
  have safeWitnesses := (safeAt_readWitnesses safeOutputs.2 _ _).arrives
    witnessesRead
  obtain ⟨_, sixth, locked, finished⟩ := bind_ok rest
  have lockTime := readBytes_arrives locked
  cases finished
  obtain ⟨_, rfl⟩ := spanned_arrives versioned
  obtain ⟨_, rfl⟩ := spanned_arrives inputsRead
  obtain ⟨_, rfl⟩ := spanned_arrives outputsRead
  refine ⟨by omega, ?_, ?_, ?_⟩
  · exact safeVersion
  · exact safeInputs
  · exact safeOutputs

theorem safeAt_copyRange (inside : cursor.offset ≤ payload.size) {range : Copy}
    (rangeInside : range.Inside payload.size) :
    SafeAt payload.size (copyRange payload range) cursor := by
  refine safeAt_then (safeAt_copy inside rangeInside.1 rangeInside.2) ?_
  exact fun _ after _ copied => safeAt_pure copied _

theorem paysAt_readTransaction (doubleSha256 : ByteString → Hash256)
    (inside : cursor.offset ≤ payload.size) (metadata : BlockMetadata) :
    PaysAt payload.size (readTransaction doubleSha256 payload metadata)
      cursor := by
  have pays := PaysAt.spanned inside (paysAt_readParts inside)
  refine paysAt_bind pays ?_
  rintro ⟨parts, whole⟩ after arrived
  obtain ⟨partsRead, rfl⟩ := spanned_arrives arrived
  obtain ⟨advanced, version, inputs, outputs⟩ :=
    readParts_arrives inside partsRead
  have afterInside := (pays.toSafeAt.arrives arrived).2
  have sizeFits := payload.size_lt
  have lockTime : Copy.Inside payload.size
      ⟨sizeSub after.offset 4, after.offset⟩ := by
    refine ⟨?_, afterInside⟩
    dsimp only
    rw [sizeSub_of_le (by omega) (by omega)]
    omega
  refine ⟨by omega, ?_⟩
  have full : Copy.Inside payload.size ⟨cursor.offset, after.offset⟩ :=
    (pays.toSafeAt.arrives arrived)
  refine safeAt_then (safeAt_copyRange afterInside full) ?_
  intro _ first _ firstInside
  refine safeAt_then (safeAt_copyRange firstInside version) ?_
  intro _ second _ secondInside
  refine safeAt_then (safeAt_copyRange secondInside inputs) ?_
  intro _ third _ thirdInside
  refine safeAt_then (safeAt_copyRange thirdInside outputs) ?_
  intro _ fourth _ fourthInside
  refine safeAt_then (safeAt_copyRange fourthInside lockTime) ?_
  exact fun _ fifth _ fifthInside => safeAt_pure fifthInside _

theorem safeAt_readBlock (doubleSha256 : ByteString → Hash256)
    (inside : cursor.offset ≤ payload.size) :
    SafeAt payload.size (readBlock doubleSha256 payload) cursor := by
  refine safeAt_then (safeAt_readCount inside) fun count after _ counted => ?_
  exact safeAt_iterate (fun metadata _ inside =>
    paysAt_readTransaction doubleSha256 inside metadata) _ _ _ counted

end Readers

section Parser

variable (doubleSha256 : ByteString → Hash256) (payload : Span UInt8)

theorem afterHeader_small : afterHeader.Small := by
  intro request member
  cases member

theorem afterHeader_inside (large : ¬ payload.size < 81) :
    afterHeader.offset ≤ payload.size := by
  change 80 ≤ payload.size
  omega

theorem parseRun_large (large : ¬ payload.size < 81) (add : Nat → Nat → Nat) :
    parseRun doubleSha256 payload add =
      (readBlock doubleSha256 payload).run add afterHeader := by
  rw [parseRun, if_neg large]

/-- Where every length fits, the machine parses what the format means. -/
theorem parseRun_of_lengthsFit (fit : LengthsFit doubleSha256 payload) :
    parseRun doubleSha256 payload sizeAdd =
      parseRun doubleSha256 payload (· + ·) := by
  by_cases large : payload.size < 81
  · rw [parseRun, parseRun, if_pos large, if_pos large]
  · have inside := afterHeader_inside payload large
    unfold LengthsFit at fit
    rw [parseRun_large doubleSha256 payload large] at fit ⊢
    rw [parseRun_large doubleSha256 payload large]
    exact (safeAt_readBlock doubleSha256 inside).agrees fit

/-- The parser of the format is safe on every payload. -/
theorem format_cursorSafe :
    CursorSafe payload (parseRun doubleSha256 payload (· + ·)).2 := by
  by_cases large : payload.size < 81
  · rw [parseRun, if_pos large]
    exact ⟨fun _ member => (List.not_mem_nil member).elim,
      fun _ member => (List.not_mem_nil member).elim, Nat.zero_le _⟩
  · rw [parseRun_large doubleSha256 payload large]
    have inside := afterHeader_inside payload large
    have safe := safeAt_readBlock doubleSha256 inside
    refine ⟨?_, ?_, ?_⟩
    · intro move member
      rcases safe.moves move member with earlier | isForward
      · exact (List.not_mem_nil earlier).elim
      · exact isForward
    · intro range member
      rcases safe.copies range member with earlier | isInside
      · exact (List.not_mem_nil earlier).elim
      · exact isInside
    · change consuming
        ((readBlock doubleSha256 payload).exactly afterHeader).2.passes ≤ _
      have charges := safe.charges
      have reached := safe.inside
      have fresh : consuming afterHeader.passes = 0 := rfl
      have start : afterHeader.offset = 80 := rfl
      omega

/-- A length that does not fit sends the machine's cursor backwards. -/
theorem astray_of_not_lengthsFit (unfit : ¬ LengthsFit doubleSha256 payload) :
    (parseRun doubleSha256 payload sizeAdd).2.Astray := by
  unfold LengthsFit at unfit
  by_cases large : payload.size < 81
  · rw [parseRun, if_pos large] at unfit
    exact (unfit afterHeader_small).elim
  · have inside := afterHeader_inside payload large
    rw [parseRun_large doubleSha256 payload large] at unfit ⊢
    exact (safeAt_readBlock doubleSha256 inside).diverges afterHeader_small unfit

/-- The cursor of the parser is safe exactly on the payloads whose lengths
fit. -/
theorem cursorSafe_iff :
    CursorSafe payload (parseRun doubleSha256 payload sizeAdd).2 ↔
      LengthsFit doubleSha256 payload := by
  constructor
  · intro safe
    by_contra unfit
    obtain ⟨move, member, backwards⟩ :=
      astray_of_not_lengthsFit doubleSha256 payload unfit
    exact backwards (safe.moves move member).1
  · intro fit
    rw [parseRun_of_lengthsFit doubleSha256 payload fit]
    exact format_cursorSafe doubleSha256 payload

end Parser

/-- A block with one transaction, whose one input announces a script of
`2 ^ 64 - 46` bytes. -/
def backwardPayload : Span UInt8 where
  items :=
    List.replicate 80 0 ++ [1] ++ List.replicate 4 0 ++ [1] ++
      List.replicate 36 0 ++ [0xFF, 0xD2] ++ List.replicate 7 0xFF
  length_lt := by simp

/-- The script takes the cursor from the end of the payload back to the start of
the input. -/
theorem not_cursorSafe :
    ¬ CursorSafe backwardPayload
      (parseRun (fun _ => Hash.zero) backwardPayload sizeAdd).2 := by
  intro safe
  have backwards : (⟨131, 2 ^ 64 - 46, 85⟩ : Move) ∈
      (parseRun (fun _ => Hash.zero) backwardPayload sizeAdd).2.moves := by
    decide +kernel
  have forward : 85 = 131 + (2 ^ 64 - 46) := (safe.moves _ backwards).1
  omega

end Bitcoin

end Blocxxi
