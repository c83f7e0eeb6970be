import Blocxxi.FileStore
import Blocxxi.TornText

/-!
# Torn writes of the file stores

A block file and the snapshot file are truncated and written in place, so a
write that is torn leaves a beginning of the text.  The readers take what they
find for the whole file: fields that are missing get their default values, and
only some of the values that were cut off are noticed, by a fault.
-/

namespace Blocxxi

namespace Storage

open Blocxxi.Core Cxx ByteText

theorem length_splitOn (separator : UInt8) (text : ByteString) :
    (text.splitOn separator).length = text.count separator + 1 := by
  induction text with
  | nil => rfl
  | cons byte text ih =>
      rw [List.splitOn_cons_eq_if_modifyHead, List.count_cons]
      split <;> simp [ih]

theorem decodeString_length {hexValue bytes : ByteString}
    (decoded : decodeString hexValue = .ok bytes) :
    bytes.length = hexValue.length / 2 := by
  unfold decodeString at decoded
  dsimp only at decoded
  split at decoded
  · cases decoded
    simp
  · rw [Hex.decode_length decoded, List.length_replicate]

/-- A string is read back from the first digits of its text only if they are all
of it. -/
theorem decodeString_take_iff (value : ByteString) (left : Nat) :
    decodeString ((encodeString value).take left) = .ok value ↔
      (encodeString value).length ≤ left := by
  have length : (encodeString value).length = 2 * value.length :=
    Hex.encode_length value false true
  constructor
  · intro decoded
    have halves := decodeString_length decoded
    rw [List.length_take] at halves
    omega
  · intro whole
    rw [List.take_of_length_le whole, decodeString_encodeString]

theorem ok_of_bind {Found Result : Type} {read : Except Fault Found}
    {next : Found → Except Fault Result} {result : Result}
    (ok : (read >>= next) = .ok result) :
    ∃ found, read = .ok found ∧ next found = .ok result := by
  cases read with
  | error fault => cases ok
  | ok found => exact ⟨found, rfl, ok⟩

theorem partAt_ok {parts : List ByteString} {index : Nat} {part : ByteString}
    (found : partAt parts index = .ok part) : parts[index]? = some part := by
  unfold partAt at found
  split at found
  · rename_i isPart
    rw [isPart]
    exact congrArg some (Except.ok.inj found)
  · cases found

/-- A transaction is only read from a line with four parts. -/
theorem parseTransaction_ok {line : ByteString} {transaction : Transaction}
    (parsed : parseTransaction line = .ok transaction) :
    ∃ part, (line.splitOn 124)[3]? = some part ∧
      decodeString part = .ok transaction.metadata := by
  unfold parseTransaction at parsed
  obtain ⟨_, -, parsed⟩ := ok_of_bind parsed
  obtain ⟨_, -, parsed⟩ := ok_of_bind parsed
  obtain ⟨_, -, parsed⟩ := ok_of_bind parsed
  obtain ⟨_, -, parsed⟩ := ok_of_bind parsed
  obtain ⟨_, -, parsed⟩ := ok_of_bind parsed
  obtain ⟨_, -, parsed⟩ := ok_of_bind parsed
  obtain ⟨part, isPart, parsed⟩ := ok_of_bind parsed
  obtain ⟨metadata, isMetadata, parsed⟩ := ok_of_bind parsed
  cases parsed
  exact ⟨part, partAt_ok isPart, isMetadata⟩

/-- A line that was cut off in front of its last part has too few parts, and the
last part is a string. -/
theorem parseTransaction_take_iff (transaction : Transaction) (left : Nat) :
    parseTransaction ((transactionValue transaction).take left) =
        .ok transaction ↔
      (transactionValue transaction).length ≤ left := by
  have bar : ascii "|" = [124] := by decide
  constructor
  · intro parsed
    obtain ⟨part, isPart, isMetadata⟩ := parseTransaction_ok parsed
    let body := transaction.id.toHex ++ ascii "|" ++ encodeString transaction.type ++
      ascii "|" ++ encodeString transaction.payload
    have whole : transactionValue transaction =
        (body ++ ascii "|") ++ encodeString transaction.metadata := rfl
    have bodyBars : body.count 124 = 2 := by
      have notId : 124 ∉ transaction.id.toHex := Hex.notMem_encode (by decide)
      simp [body, bar, List.count_eq_zero.mpr notId,
        List.count_eq_zero.mpr (notMem_encodeString _)]
    by_cases inBody : left ≤ body.length
    · have bars : ((transactionValue transaction).take left).count 124 ≤ 2 := by
        rw [whole, List.append_assoc, List.take_append_of_le_length inBody, ← bodyBars]
        exact (List.take_sublist left body).count_le 124
      have tooFew := (List.getElem?_eq_some_iff.mp isPart).1
      rw [length_splitOn] at tooFew
      omega
    · have front : (body ++ ascii "|").length ≤ left := by
        simp [bar]
        omega
      obtain ⟨behind, rfl⟩ := Nat.exists_eq_add_of_le front
      have plain : 124 ∉ (encodeString transaction.metadata).take behind :=
        fun member => notMem_encodeString _ (List.mem_of_mem_take member)
      rw [whole, List.take_length_add_append] at isPart
      have parts := splitOn_transaction transaction.id transaction.type
        transaction.payload plain
      change ((body ++ ascii "|") ++ _).splitOn 124 = _ at parts
      rw [parts] at isPart
      cases isPart
      have complete := (decodeString_take_iff _ _).mp isMetadata
      rw [whole, List.length_append]
      exact Nat.add_le_add_left complete _
  · intro whole
    rw [List.take_of_length_le whole, parseTransaction_transactionValue]

/-- A cut in the key leaves a line without a value. -/
theorem parseLine_take {key : String} (plain : 61 ∉ ascii key) (value : ByteString)
    (cut : Nat) :
    parseLine ((keyLine key value).take cut) =
      if cut < (ascii key).length then ((ascii key).take cut, [])
      else (ascii key, value.take (cut - (ascii key).length - 1)) := by
  have equals : ascii "=" = [61] := by decide
  have noValue (front : ByteString) (inKey : ∀ byte ∈ front, byte ∈ ascii key) :
      parseLine front = (front, []) := by
    rw [parseLine, breakAt, if_neg fun member => plain (inKey 61 member)]
    rfl
  have line : keyLine key value = ascii key ++ 61 :: value := by
    rw [keyLine, equals, List.append_assoc, List.singleton_append]
  split
  · rename_i inKey
    rw [line, List.take_append_of_le_length (Nat.le_of_lt inKey)]
    exact noValue _ fun byte member => List.mem_of_mem_take member
  · rename_i behindKey
    obtain ⟨left, rfl⟩ := Nat.exists_eq_add_of_le (Nat.le_of_not_lt behindKey)
    rw [line, List.take_length_add_append]
    cases left with
    | zero =>
        rw [List.take_zero, List.append_nil, noValue _ fun byte member => member]
        simp
    | succ left =>
        rw [List.take_succ_cons, parseLine, breakAt_append plain]
        simp

/-- A text of fields that was cut off is read as the fields in front of the cut and
a beginning of the next line. -/
theorem foldlM_cut {State : Type} {fields : List (String × ByteString)}
    {readLine : State → ByteString → Except Fault State} (states : Nat → State)
    (oneLine : ∀ line ∈ fields.map fieldLine, 10 ∉ line)
    (reads : ∀ index ≤ fields.length, ((fields.map fieldLine).take index).foldlM
      readLine (states 0) = .ok (states index))
    (skips : ∀ state, readLine state [] = .ok state) {kept : Nat}
    (within : kept < (unlines (fields.map fieldLine)).length) :
    ∃ key value,
      fields[(cutAt (fields.map fieldLine) kept).1]? = some (key, value) ∧
      (lines ((unlines (fields.map fieldLine)).take kept)).foldlM readLine
          (states 0) =
        readLine (states (cutAt (fields.map fieldLine) kept).1)
          ((keyLine key value).take (cutAt (fields.map fieldLine) kept).2) := by
  obtain ⟨line, isLine, -, read⟩ := lines_take_unlines oneLine within
  obtain ⟨⟨key, value⟩, isField, rfl⟩ := Option.map_eq_some_iff.mp
    (List.getElem?_map.symm.trans isLine)
  refine ⟨key, value, isField, ?_⟩
  have front := reads _ (Nat.le_of_lt (List.getElem?_eq_some_iff.mp isField).1)
  rw [read, List.foldlM_append, front]
  dsimp only [bind, Except.bind]
  split
  · rename_i empty
    rw [fieldLine] at empty
    rw [empty, skips]
    rfl
  · rw [List.foldlM_cons]
    exact bind_pure _

/-- The keys whose values may lose final zeros: a hash is filled up with zeros, and
a flag that is missing is false. -/
def paddedKeys : List String :=
  ["id", "previous", "head", "bootstrapped"]

/-- The first bytes of a value that stand for the whole value. -/
def ValueKept (key : String) (value : ByteString) (left : Nat) : Prop :=
  value.length ≤ left ∨
    key ∈ paddedKeys ∧ left % 2 = 0 ∧ ∀ digit ∈ value.drop left, digit = 48

/-- Nothing is lost by cutting a text of fields: the fields behind the cut have
their default values, and so has the field that was cut, or its value is kept. -/
def HarmlessCut (fields : List (String × ByteString)) (defaultFrom : Nat → Prop)
    (kept : Nat) : Prop :=
  ∃ key value,
    fields[(cutAt (fields.map fieldLine) kept).1]? = some (key, value) ∧
    if (cutAt (fields.map fieldLine) kept).2 < (ascii key).length then
      defaultFrom (cutAt (fields.map fieldLine) kept).1
    else
      ValueKept key value
          ((cutAt (fields.map fieldLine) kept).2 - (ascii key).length - 1) ∧
        defaultFrom ((cutAt (fields.map fieldLine) kept).1 + 1)

theorem harmlessCut_iff {fields : List (String × ByteString)}
    {defaultFrom : Nat → Prop} {kept : Nat} {key : String} {value : ByteString}
    (field : fields[(cutAt (fields.map fieldLine) kept).1]? = some (key, value)) :
    HarmlessCut fields defaultFrom kept ↔
      if (cutAt (fields.map fieldLine) kept).2 < (ascii key).length then
        defaultFrom (cutAt (fields.map fieldLine) kept).1
      else
        ValueKept key value
            ((cutAt (fields.map fieldLine) kept).2 - (ascii key).length - 1) ∧
          defaultFrom ((cutAt (fields.map fieldLine) kept).1 + 1) := by
  constructor
  · rintro ⟨otherKey, otherValue, otherField, harmless⟩
    cases field.symm.trans otherField
    exact harmless
  · intro harmless
    exact ⟨key, value, field, harmless⟩

/-- It is harmless to lose the last newline. -/
theorem harmlessCut_last {fields : List (String × ByteString)}
    {defaultFrom : Nat → Prop} (nonempty : fields ≠ [])
    (atEnd : defaultFrom fields.length) :
    HarmlessCut fields defaultFrom ((unlines (fields.map fieldLine)).length - 1) := by
  obtain ⟨front, ⟨key, value⟩, rfl⟩ :=
    (List.eq_nil_or_concat' fields).resolve_left nonempty
  have equals : ascii "=" = [61] := by decide
  have cut := cutAt_last (front.map fieldLine) (fieldLine (key, value))
  have lineLength : (fieldLine (key, value)).length =
      (ascii key).length + (value.length + 1) := by
    simp [fieldLine, keyLine, equals]
  rw [List.length_map, lineLength] at cut
  rw [List.length_append] at atEnd
  refine ⟨key, value, ?_, ?_⟩
  · rw [List.map_append, List.map_singleton, cut]
    simp
  · rw [List.map_append, List.map_singleton, cut, if_neg (by simp)]
    exact ⟨Or.inl (by dsimp only; omega), atEnd⟩

/-- The values of a block file from a line on are those of a default block. -/
structure DefaultBlockFrom (block : Block) (index : Nat) : Prop where
  id : index ≤ 0 → block.header.id = Hash.zero
  previousId : index ≤ 1 → block.header.previousId = Hash.zero
  height : index ≤ 2 → block.header.height = 0
  timestampUtc : index ≤ 3 → block.header.timestampUtc = 0
  source : index ≤ 4 → block.header.source = ascii "local"
  transactions : block.transactions.length ≤ index - 5

/-- The values of the snapshot file from a line on are those of a default
snapshot. -/
structure DefaultSnapshotFrom (snapshot : ChainSnapshot) (index : Nat) : Prop where
  height : index ≤ 0 → snapshot.height = 0
  headId : index ≤ 1 → snapshot.headId = Hash.zero
  blockCount : index ≤ 2 → snapshot.blockCount = 0
  acceptedTransactions : index ≤ 3 → snapshot.acceptedTransactions = 0
  bootstrapped : index ≤ 4 → snapshot.bootstrapped = false

theorem ite_lt_eq_iff {Value : Type} {place index : Nat} {value default : Value} :
    (if place < index then value else default) = value ↔
      (index ≤ place → value = default) := by
  by_cases before : place < index
  · rw [if_pos before]
    simp [before]
  · rw [if_neg before]
    simp [Nat.le_of_not_lt before, eq_comm]

theorem partialBlock_eq_iff {block : Block} {index : Nat} :
    partialBlock block index = block ↔ DefaultBlockFrom block index := by
  rcases block with ⟨⟨id, previousId, height, timestampUtc, source⟩, transactions⟩
  simp only [partialBlock, Block.mk.injEq, BlockHeader.mk.injEq, ite_lt_eq_iff,
    List.take_eq_self_iff]
  constructor
  · rintro ⟨⟨ids, previousIds, heights, timestamps, sources⟩, counts⟩
    exact ⟨ids, previousIds, heights, timestamps, sources, counts⟩
  · rintro ⟨ids, previousIds, heights, timestamps, sources, counts⟩
    exact ⟨⟨ids, previousIds, heights, timestamps, sources⟩, counts⟩

theorem partialSnapshot_eq_iff {snapshot : ChainSnapshot} {index : Nat} :
    partialSnapshot snapshot index = snapshot ↔
      DefaultSnapshotFrom snapshot index := by
  rcases snapshot with ⟨height, headId, blockCount, acceptedTransactions,
    bootstrapped⟩
  simp only [partialSnapshot, ChainSnapshot.mk.injEq, ite_lt_eq_iff]
  constructor
  · rintro ⟨heights, headIds, blockCounts, accepted, flags⟩
    exact ⟨heights, headIds, blockCounts, accepted, flags⟩
  · rintro ⟨heights, headIds, blockCounts, accepted, flags⟩
    exact ⟨heights, headIds, blockCounts, accepted, flags⟩

theorem valueKept_of_mem {key : String} (padded : key ∈ paddedKeys)
    (value : ByteString) (left : Nat) :
    ValueKept key value left ↔ value.length ≤ left ∨
      left % 2 = 0 ∧ ∀ digit ∈ value.drop left, digit = 48 := by
  rw [ValueKept, and_iff_right padded]

theorem valueKept_of_notMem {key : String} (exact : key ∉ paddedKeys)
    (value : ByteString) (left : Nat) :
    ValueKept key value left ↔ value.length ≤ left := by
  rw [ValueKept, or_iff_left fun padded => exact padded.1]

/-- A value that is put in its place gives the whole only if it is the one that the
whole has there. -/
theorem map_put_iff {Value State : Type} {read : Except Fault Value}
    {whole : State} (put : Value → State) (get : State → Value) (next : State)
    (get_put : ∀ value, get (put value) = value) (put_get : put (get whole) = next) :
    read.map put = .ok whole ↔ read = .ok (get whole) ∧ next = whole := by
  cases read with
  | error fault =>
      constructor
      · intro equal
        cases equal
      · rintro ⟨equal, -⟩
        cases equal
  | ok value =>
      rw [Except.map, Except.ok.injEq, Except.ok.injEq]
      constructor
      · rintro rfl
        rw [get_put] at put_get
        exact ⟨(get_put value).symm, put_get.symm⟩
      · rintro ⟨isValue, isWhole⟩
        rw [isValue, put_get, isWhole]

theorem readBlockField_take_iff {block : Block} {index : Nat} {key : String}
    {value : ByteString}
    (field : (blockFields block)[index]? = some (key, value)) (left : Nat) :
    readBlockField (partialBlock block index) (ascii key) (value.take left) =
        .ok block ↔
      ValueKept key value left ∧ DefaultBlockFrom block (index + 1) := by
  rcases blockFields_cases field with ⟨rfl, rfl, rfl⟩ | ⟨rfl, rfl, rfl⟩ |
    ⟨rfl, rfl, rfl⟩ | ⟨rfl, rfl, rfl⟩ | ⟨rfl, rfl, rfl⟩ |
    ⟨place, transaction, rfl, rfl, found, rfl⟩
  · rw [readBlockField_id, map_put_iff _ (fun other : Block => other.header.id)
        (partialBlock block 1) (fun _ => rfl) rfl, partialBlock_eq_iff,
      Hash.fromHex_take_iff, valueKept_of_mem (by decide)]
  · rw [readBlockField_previous,
      map_put_iff _ (fun other : Block => other.header.previousId)
        (partialBlock block 2) (fun _ => rfl) rfl, partialBlock_eq_iff,
      Hash.fromHex_take_iff, valueKept_of_mem (by decide)]
  · rw [readBlockField_height,
      map_put_iff _ (fun other : Block => other.header.height)
        (partialBlock block 3) (fun _ => rfl) rfl, partialBlock_eq_iff,
      stoull_take_iff, valueKept_of_notMem (by decide)]
  · rw [readBlockField_timestamp,
      map_put_iff _ (fun other : Block => other.header.timestampUtc)
        (partialBlock block 4) (fun _ => rfl) rfl, partialBlock_eq_iff,
      stoll_take_iff, valueKept_of_notMem (by decide)]
  · rw [readBlockField_source,
      map_put_iff _ (fun other : Block => other.header.source)
        (partialBlock block 5) (fun _ => rfl) rfl, partialBlock_eq_iff,
      decodeString_take_iff, valueKept_of_notMem (by decide)]
  · have places : place + 5 - 5 = place ∧ place + 5 + 1 - 5 = place + 1 := by omega
    obtain ⟨within, isTransaction⟩ := List.getElem?_eq_some_iff.mp found
    have isAt : block.transactions.getD place {} = transaction := by
      rw [List.getD_eq_getElem?_getD, found]
      rfl
    rw [readBlockField_tx,
      map_put_iff _ (fun other : Block => other.transactions.getD place {})
        (partialBlock block (place + 5 + 1)), partialBlock_eq_iff, isAt,
      parseTransaction_take_iff, valueKept_of_notMem (by decide)]
    · intro other
      have size : (block.transactions.take place).length = place := by
        rw [List.length_take]
        omega
      simp [partialBlock, List.getD_eq_getElem?_getD, size]
    · have read := readBlockField_partialBlock field
      rw [readBlockField_tx, parseTransaction_transactionValue] at read
      rw [isAt]
      exact Except.ok.inj read

/-- A cut key is no key, so the line has no effect. -/
theorem readBlockField_cutKey {block other : Block} {index : Nat} {key : String}
    {value : ByteString}
    (field : (blockFields block)[index]? = some (key, value)) {cut : Nat}
    (inKey : cut < (ascii key).length) :
    readBlockField other ((ascii key).take cut) [] = .ok other := by
  have noKey : ∀ known ∈ ["id", "previous", "height", "timestamp", "source", "tx"],
      ∀ cut < (ascii known).length,
        (ascii known).take cut ≠ ascii "id" ∧
        (ascii known).take cut ≠ ascii "previous" ∧
        (ascii known).take cut ≠ ascii "height" ∧
        (ascii known).take cut ≠ ascii "timestamp" ∧
        (ascii known).take cut ≠ ascii "source" ∧
        (ascii known).take cut ≠ ascii "tx" := by
    decide
  have known : key ∈ ["id", "previous", "height", "timestamp", "source", "tx"] := by
    rcases blockFields_cases field with ⟨-, rfl, -⟩ | ⟨-, rfl, -⟩ | ⟨-, rfl, -⟩ |
      ⟨-, rfl, -⟩ | ⟨-, rfl, -⟩ | ⟨-, -, -, rfl, -, -⟩ <;> decide
  obtain ⟨notId, notPrevious, notHeight, notTimestamp, notSource, notTx⟩ :=
    noKey key known cut inKey
  rw [readBlockField, if_neg notId, if_neg notPrevious, if_neg notHeight,
    if_neg notTimestamp, if_neg notSource, if_neg notTx]

theorem readBlockLine_eq (block : Block) (line : ByteString) :
    readBlockLine block line =
      readBlockField block (parseLine line).1 (parseLine line).2 := by
  unfold readBlockLine
  split
  · rename_i empty
    rw [empty]
    rfl
  · rfl

theorem readBlock_take_iff {block : Block} {kept : Nat}
    (within : kept < (blockText block).length) :
    readBlock ((blockText block).take kept) = .ok block ↔
      HarmlessCut (blockFields block) (DefaultBlockFrom block) kept := by
  have oneLine := blockLines_oneLine block
  rw [blockText, blockLines_eq] at within ⊢
  rw [blockLines_eq] at oneLine
  obtain ⟨key, value, field, read⟩ := foldlM_cut (partialBlock block) oneLine
    (fun index within => by
      rw [← blockLines_eq]
      exact readBlock_take block index within)
    (fun _ => rfl) within
  change readBlock _ = _ at read
  rw [read, readBlockLine_eq, parseLine_take (plain_blockFields field), harmlessCut_iff field]
  split
  · rename_i inKey
    rw [readBlockField_cutKey field inKey, Except.ok.injEq, partialBlock_eq_iff]
  · exact readBlockField_take_iff field _

theorem unlines_fields_pos {fields : List (String × ByteString)}
    (nonempty : fields ≠ []) : 0 < (unlines (fields.map fieldLine)).length := by
  obtain ⟨front, last, rfl⟩ := (List.eq_nil_or_concat' fields).resolve_left nonempty
  simp [unlines]

/-- A block file without its last newline is read as the whole. -/
theorem readBlock_dropLast (block : Block) :
    readBlock (blockText block).dropLast = .ok block := by
  have nonempty : blockFields block ≠ [] := List.cons_ne_nil _ _
  have text : blockText block = unlines ((blockFields block).map fieldLine) := by
    rw [blockText, blockLines_eq]
  have within : (blockText block).length - 1 < (blockText block).length := by
    rw [text]
    exact Nat.sub_lt (unlines_fields_pos nonempty) Nat.one_pos
  rw [List.dropLast_eq_take, readBlock_take_iff within, text]
  apply harmlessCut_last nonempty
  have length : (blockFields block).length = 5 + block.transactions.length := by
    rw [blockFields, List.length_append, List.length_map]
    rfl
  constructor <;> omega

/-- A flag without its digit is false. -/
theorem flag_take_iff (flag : Bool) (left : Nat) :
    (((if flag then ascii "1" else ascii "0").take left) == ascii "1") = flag ↔
      (if flag then ascii "1" else ascii "0").length ≤ left ∨
        left % 2 = 0 ∧ ∀ digit ∈ (if flag then ascii "1" else ascii "0").drop left,
          digit = 48 := by
  have digits : ascii "1" = [49] ∧ ascii "0" = [48] := by decide
  rw [digits.1, digits.2]
  cases left with
  | zero => cases flag <;> simp
  | succ left => cases flag <;> simp

theorem readSnapshotField_take_iff {snapshot : ChainSnapshot} {index : Nat}
    {key : String} {value : ByteString}
    (field : (snapshotFields snapshot)[index]? = some (key, value)) (left : Nat) :
    readSnapshotField (partialSnapshot snapshot index) (ascii key)
        (value.take left) = .ok snapshot ↔
      ValueKept key value left ∧ DefaultSnapshotFrom snapshot (index + 1) := by
  rcases snapshotFields_cases field with ⟨rfl, rfl, rfl⟩ | ⟨rfl, rfl, rfl⟩ |
    ⟨rfl, rfl, rfl⟩ | ⟨rfl, rfl, rfl⟩ | ⟨rfl, rfl, rfl⟩
  · rw [readSnapshotField_height, map_put_iff _ ChainSnapshot.height
        (partialSnapshot snapshot 1) (fun _ => rfl) rfl, partialSnapshot_eq_iff,
      stoull_take_iff, valueKept_of_notMem (by decide)]
  · rw [readSnapshotField_head, map_put_iff _ ChainSnapshot.headId
        (partialSnapshot snapshot 2) (fun _ => rfl) rfl, partialSnapshot_eq_iff,
      Hash.fromHex_take_iff, valueKept_of_mem (by decide)]
  · rw [readSnapshotField_blockCount, map_put_iff _ ChainSnapshot.blockCount
        (partialSnapshot snapshot 3) (fun _ => rfl) rfl, partialSnapshot_eq_iff,
      stoull_take_iff, valueKept_of_notMem (by decide)]
  · rw [readSnapshotField_acceptedTransactions,
      map_put_iff _ ChainSnapshot.acceptedTransactions
        (partialSnapshot snapshot 4) (fun _ => rfl) rfl, partialSnapshot_eq_iff,
      stoull_take_iff, valueKept_of_notMem (by decide)]
  · -- the text of the flag is one digit, and no digit stands for false
    rw [readSnapshotField_bootstrapped, Except.ok.injEq, ← partialSnapshot_eq_iff,
      valueKept_of_mem (by decide)]
    rw [← flag_take_iff]
    rcases snapshot with ⟨height, headId, blockCount, acceptedTransactions,
      bootstrapped⟩
    simp [partialSnapshot]

theorem readSnapshotField_cutKey {snapshot other : ChainSnapshot} {index : Nat}
    {key : String} {value : ByteString}
    (field : (snapshotFields snapshot)[index]? = some (key, value)) {cut : Nat}
    (inKey : cut < (ascii key).length) :
    readSnapshotField other ((ascii key).take cut) [] = .ok other := by
  have noKey : ∀ known ∈ ["height", "head", "block_count", "accepted_transactions",
      "bootstrapped"],
      ∀ cut < (ascii known).length,
        (ascii known).take cut ≠ ascii "height" ∧
        (ascii known).take cut ≠ ascii "head" ∧
        (ascii known).take cut ≠ ascii "block_count" ∧
        (ascii known).take cut ≠ ascii "accepted_transactions" ∧
        (ascii known).take cut ≠ ascii "bootstrapped" := by
    decide +kernel
  have known : key ∈ ["height", "head", "block_count", "accepted_transactions",
      "bootstrapped"] := by
    rcases snapshotFields_cases field with ⟨-, rfl, -⟩ | ⟨-, rfl, -⟩ |
      ⟨-, rfl, -⟩ | ⟨-, rfl, -⟩ | ⟨-, rfl, -⟩ <;> decide
  obtain ⟨notHeight, notHead, notCount, notAccepted, notBootstrapped⟩ :=
    noKey key known cut inKey
  rw [readSnapshotField, if_neg notHeight, if_neg notHead, if_neg notCount,
    if_neg notAccepted, if_neg notBootstrapped]

theorem readSnapshot_take_iff {snapshot : ChainSnapshot} {kept : Nat}
    (within : kept < (snapshotText snapshot).length) :
    readSnapshot ((snapshotText snapshot).take kept) = .ok snapshot ↔
      HarmlessCut (snapshotFields snapshot) (DefaultSnapshotFrom snapshot) kept := by
  rw [snapshotText_eq] at within ⊢
  obtain ⟨key, value, field, read⟩ := foldlM_cut (partialSnapshot snapshot)
    (snapshotFields_oneLine snapshot) (readSnapshot_take snapshot)
    (fun _ => rfl) within
  change readSnapshot _ = _ at read
  rw [read, readSnapshotLine, parseLine_take (plain_snapshotFields field),
    harmlessCut_iff field]
  split
  · rename_i inKey
    rw [readSnapshotField_cutKey field inKey, Except.ok.injEq, partialSnapshot_eq_iff]
  · exact readSnapshotField_take_iff field _

/-- A read that reports nothing or what was written. -/
def NothingOr {Stored : Type} (whole : Stored)
    (read : Except Fault (Option Stored)) : Prop :=
  read = .ok none ∨ read = .ok (some whole)

theorem nothingOr_map_some_iff {Stored : Type} {whole : Stored}
    {read : Except Fault Stored} :
    NothingOr whole (read.map some) ↔ read = .ok whole := by
  cases read with
  | error fault => simp [NothingOr, Except.map]
  | ok stored => simp [NothingOr, Except.map]

/-- A beginning of a file is read as nothing or as the whole exactly when the cut is
harmless. -/
theorem tornWrites_iff (block : Block) (snapshot : ChainSnapshot) :
    (∀ kept < (blockText block).length,
      (NothingOr block ((readBlock ((blockText block).take kept)).map some) ↔
        HarmlessCut (blockFields block) (DefaultBlockFrom block) kept)) ∧
    ∀ kept < (snapshotText snapshot).length,
      (NothingOr snapshot
          (SnapshotFile.load { content := some ((snapshotText snapshot).take kept) }) ↔
        HarmlessCut (snapshotFields snapshot) (DefaultSnapshotFrom snapshot)
          kept) := by
  constructor
  · intro kept within
    rw [nothingOr_map_some_iff, readBlock_take_iff within]
  · intro kept within
    dsimp only [SnapshotFile.load]
    rw [nothingOr_map_some_iff, readSnapshot_take_iff within]

def twelfthBlock : Block where
  header := { height := 12 }
  transactions := [{}]

def twelfthSnapshot : ChainSnapshot where
  height := 12

theorem tornWrites_iff_twelfth :
    HarmlessCut (blockFields twelfthBlock) (DefaultBlockFrom twelfthBlock)
        ((blockText twelfthBlock).length - 1) ∧
      ¬ HarmlessCut (blockFields twelfthBlock) (DefaultBlockFrom twelfthBlock)
        150 := by
  have harmless := (tornWrites_iff twelfthBlock twelfthSnapshot).1
  constructor
  · rw [← harmless _ (by decide +kernel), nothingOr_map_some_iff,
      ← List.dropLast_eq_take]
    exact readBlock_dropLast twelfthBlock
  · rw [← harmless 150 (by decide +kernel), nothingOr_map_some_iff]
    decide +kernel

/-- A cut in a number gives another number; cuts in front of a number, in a hash and
in a transaction are faults. -/
theorem tornWrites_mistaken :
    (readBlock ((blockText twelfthBlock).take 150) =
        .ok { header := { height := 1 }, transactions := [] } ∧
      readBlock ((blockText twelfthBlock).take 149) = .error (.exception "stoull") ∧
      (∃ message, readBlock ((blockText twelfthBlock).take 4) =
        .error (.aborted message)) ∧
      readBlock ((blockText twelfthBlock).take 185) = .error .outOfBounds) ∧
    ¬ (∀ (block : Block) (kept : Nat), kept < (blockText block).length →
      NothingOr block ((readBlock ((blockText block).take kept)).map some)) ∧
    ¬ ∀ (snapshot : ChainSnapshot) (kept : Nat),
      kept < (snapshotText snapshot).length →
      NothingOr snapshot
        (SnapshotFile.load { content := some ((snapshotText snapshot).take kept) }) := by
  refine ⟨⟨by decide +kernel, by decide +kernel, ⟨_, by rfl⟩, by decide +kernel⟩,
    ?_, ?_⟩
  · intro neverMistaken
    have read := neverMistaken twelfthBlock 150 (by decide +kernel)
    rw [nothingOr_map_some_iff] at read
    revert read
    decide +kernel
  · intro neverMistaken
    have read := neverMistaken twelfthSnapshot 8 (by decide +kernel)
    dsimp only [SnapshotFile.load] at read
    rw [nothingOr_map_some_iff] at read
    revert read
    decide +kernel

end Storage

end Blocxxi
