import Blocxxi.CorePrimitives

/-!
# The text format of the file stores

A block file and the snapshot file are made of lines of the form `key=value`.
Strings and payloads are written as base 16 text and numbers as decimal text,
so no value contains a newline or one of the separators.
-/

namespace Blocxxi

namespace Storage

open Blocxxi.Core Cxx ByteText

/-- Steps that lead from each state to the next lead through the first items. -/
theorem foldlM_take {Item State : Type} {step : State → Item → Except Fault State}
    {items : List Item} (states : Nat → State)
    (steps : ∀ index item, items[index]? = some item →
      step (states index) item = .ok (states (index + 1)))
    {count : Nat} (within : count ≤ items.length) :
    (items.take count).foldlM step (states 0) = .ok (states count) := by
  induction count with
  | zero => rfl
  | succ count ih =>
      have isItem := List.getElem?_eq_getElem within
      rw [List.take_add_one, isItem, List.foldlM_append,
        ih (Nat.le_of_succ_le within)]
      have last := steps count _ isItem
      simp [bind, Except.bind, last, pure, Except.pure]

def encodeString (value : ByteString) : ByteString :=
  Hex.encode value false true

def decodeString (hexValue : ByteString) : Except Fault ByteString :=
  let bytes := List.replicate (hexValue.length / 2) 0
  if hexValue = [] then .ok bytes
  else Hex.decode hexValue bytes false

/-- The key and the value of a line, cut at the first `=`. -/
def parseLine (line : ByteString) : ByteString × ByteString :=
  (breakAt 61 line).getD (line, [])

/-- A line as it is written, without the newline. -/
def keyLine (key : String) (value : ByteString) : ByteString :=
  ascii key ++ ascii "=" ++ value

@[simp]
theorem decodeString_encodeString (value : ByteString) :
    decodeString (encodeString value) = .ok value := by
  unfold decodeString encodeString
  by_cases empty : value = []
  · subst empty
    rfl
  · have encodedNonempty : Hex.encode value false true ≠ [] := by
      intro encodedNil
      have lengths := congrArg List.length encodedNil
      simp [empty] at lengths
    simp only [encodedNonempty, if_false, Hex.encode_length]
    rw [Hex.decode_encode true empty (by simp)]
    simp

theorem parseLine_keyLine {key : String} (plain : 61 ∉ ascii key)
    (value : ByteString) : parseLine (keyLine key value) = (ascii key, value) := by
  have equals : ascii "=" = [61] := by decide
  unfold parseLine keyLine
  rw [equals, List.append_assoc, List.singleton_append, breakAt_append plain]
  rfl

theorem keyLine_oneLine {key : String} {value : ByteString}
    (plainKey : 10 ∉ ascii key) (plainValue : 10 ∉ value) :
    10 ∉ keyLine key value := by
  have equals : ascii "=" = [61] := by decide
  simp [keyLine, equals, plainKey, plainValue]

def blockFileName (block : Block) : ByteString :=
  decimal block.header.height.toNat ++ ascii "-" ++ block.header.id.toHex ++
    ascii ".blk"

/-- The line of a transaction. -/
def transactionValue (transaction : Transaction) : ByteString :=
  transaction.id.toHex ++ ascii "|" ++ encodeString transaction.type ++
    ascii "|" ++ Hex.encode transaction.payload false true ++ ascii "|" ++
      encodeString transaction.metadata

def blockLines (block : Block) : List ByteString :=
  [keyLine "id" block.header.id.toHex,
    keyLine "previous" block.header.previousId.toHex,
    keyLine "height" (decimal block.header.height.toNat),
    keyLine "timestamp" (decimalInt block.header.timestampUtc.toInt),
    keyLine "source" (encodeString block.header.source)] ++
  block.transactions.map fun transaction =>
    keyLine "tx" (transactionValue transaction)

/-- What `PutBlock` writes. -/
def blockText (block : Block) : ByteString :=
  unlines (blockLines block)

/-- `parts[index]` of a vector, which nothing checks. -/
def partAt (parts : List ByteString) (index : Nat) : Except Fault ByteString :=
  match parts[index]? with
  | some part => .ok part
  | none => .error .outOfBounds

def parseTransaction (line : ByteString) : Except Fault Transaction := do
  let parts := line.splitOn 124
  let payload ← decodeString (← partAt parts 2)
  let id ← Hash.fromHex (← partAt parts 0) false
  let type ← decodeString (← partAt parts 1)
  let metadata ← decodeString (← partAt parts 3)
  .ok { id := id, type := type, payload := payload, metadata := metadata }

/-- The effect of one key on the block that is being read. -/
def readBlockField (block : Block) (key value : ByteString) :
    Except Fault Block :=
  if key = ascii "id" then do
    let id ← Hash.fromHex value false
    .ok { block with header := { block.header with id := id } }
  else if key = ascii "previous" then do
    let previousId ← Hash.fromHex value false
    .ok { block with header := { block.header with previousId := previousId } }
  else if key = ascii "height" then do
    let height ← stoull value
    .ok { block with header := { block.header with height := height } }
  else if key = ascii "timestamp" then do
    let timestampUtc ← stoll value
    .ok { block with
      header := { block.header with timestampUtc := timestampUtc } }
  else if key = ascii "source" then do
    let source ← decodeString value
    .ok { block with header := { block.header with source := source } }
  else if key = ascii "tx" then do
    let transaction ← parseTransaction value
    .ok { block with transactions := block.transactions ++ [transaction] }
  else .ok block

/-- The effect of one line; an empty line is skipped. -/
def readBlockLine (block : Block) (line : ByteString) : Except Fault Block :=
  if line = [] then .ok block
  else readBlockField block (parseLine line).1 (parseLine line).2

/-- What `ReadBlock` makes of the contents of a file. -/
def readBlock (text : ByteString) : Except Fault Block :=
  (lines text).foldlM readBlockLine {}

/-- The parts of a transaction line, whose last one is any text without a
separator. -/
theorem splitOn_transaction (id : TransactionId) (type payload : ByteString)
    {last : ByteString} (plain : 124 ∉ last) :
    (id.toHex ++ ascii "|" ++ encodeString type ++ ascii "|" ++
        encodeString payload ++ ascii "|" ++ last).splitOn 124 =
      [id.toHex, encodeString type, encodeString payload, last] := by
  have bar : ascii "|" = [124] := by decide
  have special : Hex.decForIndex 124 = Hex.invalidValue := by decide
  unfold encodeString Hash.toHex
  simp only [bar, List.append_assoc, List.cons_append, List.nil_append]
  rw [List.splitOn_append_cons_self_of_not_mem (Hex.notMem_encode special),
    List.splitOn_append_cons_self_of_not_mem (Hex.notMem_encode special),
    List.splitOn_append_cons_self_of_not_mem (Hex.notMem_encode special),
    List.splitOn_eq_singleton plain]

theorem notMem_encodeString (value : ByteString) : 124 ∉ encodeString value :=
  Hex.notMem_encode (by decide)

theorem parseTransaction_transactionValue (transaction : Transaction) :
    parseTransaction (transactionValue transaction) = .ok transaction := by
  have parts := splitOn_transaction transaction.id transaction.type
    transaction.payload (notMem_encodeString transaction.metadata)
  change (transactionValue transaction).splitOn 124 = _ at parts
  simp [parseTransaction, parts, partAt, bind, Except.bind]

theorem blockLines_oneLine (block : Block) :
    ∀ line ∈ blockLines block, 10 ∉ line := by
  have special : Hex.decForIndex 10 = Hex.invalidValue := by decide
  have bar : ascii "|" = [124] := by decide
  have hex (src : ByteString) : 10 ∉ Hex.encode src false true :=
    Hex.notMem_encode special
  intro line member
  simp only [blockLines, List.mem_append, List.mem_cons, List.not_mem_nil,
    or_false, List.mem_map] at member
  rcases member with (rfl | rfl | rfl | rfl | rfl) | ⟨transaction, -, rfl⟩
  · exact keyLine_oneLine (by decide) (hex _)
  · exact keyLine_oneLine (by decide) (hex _)
  · exact keyLine_oneLine (by decide) (notMem_decimal (by decide))
  · exact keyLine_oneLine (by decide) (notMem_decimalInt (by decide) (by decide))
  · exact keyLine_oneLine (by decide) (hex _)
  · apply keyLine_oneLine (by decide)
    simp [transactionValue, encodeString, Hash.toHex, bar, hex]

/-- A written line has the effect of its key. -/
theorem readBlockLine_keyLine (block : Block) {key : String}
    (plain : 61 ∉ ascii key) (value : ByteString) :
    readBlockLine block (keyLine key value) =
      readBlockField block (ascii key) value := by
  have equals : ascii "=" = [61] := by decide
  have nonempty : keyLine key value ≠ [] := by simp [keyLine, equals]
  rw [readBlockLine, if_neg nonempty, parseLine_keyLine plain]

/-- The lines of a block file as keys and values. -/
def blockFields (block : Block) : List (String × ByteString) :=
  [("id", block.header.id.toHex),
    ("previous", block.header.previousId.toHex),
    ("height", decimal block.header.height.toNat),
    ("timestamp", decimalInt block.header.timestampUtc.toInt),
    ("source", encodeString block.header.source)] ++
  block.transactions.map fun transaction => ("tx", transactionValue transaction)

def fieldLine (field : String × ByteString) : ByteString :=
  keyLine field.1 field.2

theorem blockLines_eq (block : Block) :
    blockLines block = (blockFields block).map fieldLine := by
  simp [blockLines, blockFields, fieldLine, Function.comp_def]

/-- A field is the value of a header or of a transaction. -/
theorem blockFields_cases {block : Block} {index : Nat} {key : String}
    {value : ByteString}
    (field : (blockFields block)[index]? = some (key, value)) :
    (index = 0 ∧ key = "id" ∧ value = block.header.id.toHex) ∨
    (index = 1 ∧ key = "previous" ∧ value = block.header.previousId.toHex) ∨
    (index = 2 ∧ key = "height" ∧ value = decimal block.header.height.toNat) ∨
    (index = 3 ∧ key = "timestamp" ∧
      value = decimalInt block.header.timestampUtc.toInt) ∨
    (index = 4 ∧ key = "source" ∧ value = encodeString block.header.source) ∨
    ∃ place transaction, index = place + 5 ∧ key = "tx" ∧
      block.transactions[place]? = some transaction ∧
      value = transactionValue transaction := by
  rcases index with _ | _ | _ | _ | _ | place
  · cases field
    exact Or.inl ⟨rfl, rfl, rfl⟩
  · cases field
    exact Or.inr (Or.inl ⟨rfl, rfl, rfl⟩)
  · cases field
    exact Or.inr (Or.inr (Or.inl ⟨rfl, rfl, rfl⟩))
  · cases field
    exact Or.inr (Or.inr (Or.inr (Or.inl ⟨rfl, rfl, rfl⟩)))
  · cases field
    exact Or.inr (Or.inr (Or.inr (Or.inr (Or.inl ⟨rfl, rfl, rfl⟩))))
  · have ofTransaction : (block.transactions.map fun transaction =>
        ("tx", transactionValue transaction))[place]? = some (key, value) := field
    rw [List.getElem?_map, Option.map_eq_some_iff] at ofTransaction
    obtain ⟨transaction, found, isField⟩ := ofTransaction
    cases isField
    exact Or.inr (Or.inr (Or.inr (Or.inr (Or.inr
      ⟨place, transaction, rfl, rfl, found, rfl⟩))))

section Fields

variable (block : Block) (value : ByteString)

theorem readBlockField_id :
    readBlockField block (ascii "id") value =
      (Hash.fromHex value false).map fun id =>
        { block with header := { block.header with id := id } } := by
  rw [readBlockField, if_pos rfl]
  cases Hash.fromHex value false <;> rfl

theorem readBlockField_previous :
    readBlockField block (ascii "previous") value =
      (Hash.fromHex value false).map fun previousId =>
        { block with header := { block.header with previousId := previousId } } := by
  rw [readBlockField, if_neg (by decide), if_pos rfl]
  cases Hash.fromHex value false <;> rfl

theorem readBlockField_height :
    readBlockField block (ascii "height") value =
      (stoull value).map fun height =>
        { block with header := { block.header with height := height } } := by
  rw [readBlockField, if_neg (by decide), if_neg (by decide), if_pos rfl]
  cases stoull value <;> rfl

theorem readBlockField_timestamp :
    readBlockField block (ascii "timestamp") value =
      (stoll value).map fun timestampUtc =>
        { block with header := { block.header with
          timestampUtc := timestampUtc } } := by
  rw [readBlockField, if_neg (by decide), if_neg (by decide), if_neg (by decide),
    if_pos rfl]
  cases stoll value <;> rfl

theorem readBlockField_source :
    readBlockField block (ascii "source") value =
      (decodeString value).map fun source =>
        { block with header := { block.header with source := source } } := by
  rw [readBlockField, if_neg (by decide), if_neg (by decide), if_neg (by decide),
    if_neg (by decide), if_pos rfl]
  cases decodeString value <;> rfl

theorem readBlockField_tx :
    readBlockField block (ascii "tx") value =
      (parseTransaction value).map fun transaction =>
        { block with transactions := block.transactions ++ [transaction] } := by
  rw [readBlockField, if_neg (by decide), if_neg (by decide), if_neg (by decide),
    if_neg (by decide), if_neg (by decide), if_pos rfl]
  cases parseTransaction value <;> rfl

end Fields

/-- The block with its first fields only; the others are those of a default
block. -/
def partialBlock (block : Block) (index : Nat) : Block where
  header :=
    { id := if 0 < index then block.header.id else Hash.zero
      previousId := if 1 < index then block.header.previousId else Hash.zero
      height := if 2 < index then block.header.height else 0
      timestampUtc := if 3 < index then block.header.timestampUtc else 0
      source := if 4 < index then block.header.source else ascii "local" }
  transactions := block.transactions.take (index - 5)

/-- Reading a field adds it. -/
theorem readBlockField_partialBlock {block : Block} {index : Nat} {key : String}
    {value : ByteString}
    (field : (blockFields block)[index]? = some (key, value)) :
    readBlockField (partialBlock block index) (ascii key) value =
      .ok (partialBlock block (index + 1)) := by
  rcases blockFields_cases field with ⟨rfl, rfl, rfl⟩ | ⟨rfl, rfl, rfl⟩ |
    ⟨rfl, rfl, rfl⟩ | ⟨rfl, rfl, rfl⟩ | ⟨rfl, rfl, rfl⟩ |
    ⟨place, transaction, rfl, rfl, found, rfl⟩
  · rw [readBlockField_id, Hash.fromHex_toHex]
    rfl
  · rw [readBlockField_previous, Hash.fromHex_toHex]
    rfl
  · rw [readBlockField_height, stoull_decimal]
    rfl
  · rw [readBlockField_timestamp, stoll_decimalInt]
    rfl
  · rw [readBlockField_source, decodeString_encodeString]
    rfl
  · rw [readBlockField_tx, parseTransaction_transactionValue]
    have oneMore : block.transactions.take (place + 1) =
        block.transactions.take place ++ [transaction] := by
      rw [List.take_add_one, found]
      rfl
    have sizes : place + 5 - 5 = place ∧ place + 5 + 1 - 5 = place + 1 := by omega
    simp [partialBlock, Except.map, sizes.2, oneMore]

theorem plain_blockFields {block : Block} {index : Nat} {key : String}
    {value : ByteString}
    (field : (blockFields block)[index]? = some (key, value)) : 61 ∉ ascii key := by
  rcases blockFields_cases field with ⟨-, rfl, -⟩ | ⟨-, rfl, -⟩ | ⟨-, rfl, -⟩ |
    ⟨-, rfl, -⟩ | ⟨-, rfl, -⟩ | ⟨-, -, -, rfl, -, -⟩ <;> decide

/-- Reading the first lines of a block file gives the first fields. -/
theorem readBlock_take (block : Block) (index : Nat)
    (within : index ≤ (blockFields block).length) :
    ((blockLines block).take index).foldlM readBlockLine {} =
      .ok (partialBlock block index) := by
  rw [blockLines_eq]
  rw [← List.length_map fieldLine] at within
  apply foldlM_take (partialBlock block) _ within
  intro place line isLine
  obtain ⟨⟨key, value⟩, isField, rfl⟩ := Option.map_eq_some_iff.mp
    (List.getElem?_map.symm.trans isLine)
  rw [fieldLine, readBlockLine_keyLine _ (plain_blockFields isField)]
  exact readBlockField_partialBlock isField

/-- Reading a block file gives back the block it was written for. -/
theorem readBlock_blockText (block : Block) :
    readBlock (blockText block) = .ok block := by
  have length : (blockLines block).length = (blockFields block).length := by
    rw [blockLines_eq, List.length_map]
  have read := readBlock_take block (blockFields block).length (Nat.le_refl _)
  rw [← length, List.take_length] at read
  rw [readBlock, blockText, lines_unlines (blockLines_oneLine block), read, length]
  simp [partialBlock, blockFields]

/-- What `Save` writes. -/
def snapshotText (snapshot : ChainSnapshot) : ByteString :=
  unlines
    [keyLine "height" (decimal snapshot.height.toNat),
      keyLine "head" snapshot.headId.toHex,
      keyLine "block_count" (decimal snapshot.blockCount.toNat),
      keyLine "accepted_transactions"
        (decimal snapshot.acceptedTransactions.toNat),
      keyLine "bootstrapped"
        (if snapshot.bootstrapped then ascii "1" else ascii "0")]

/-- The effect of one line on the snapshot that is being read. -/
def readSnapshotField (snapshot : ChainSnapshot) (key value : ByteString) :
    Except Fault ChainSnapshot :=
  if key = ascii "height" then do
    let height ← stoull value
    .ok { snapshot with height := height }
  else if key = ascii "head" then do
    let headId ← Hash.fromHex value false
    .ok { snapshot with headId := headId }
  else if key = ascii "block_count" then do
    let blockCount ← stoull value
    .ok { snapshot with blockCount := blockCount }
  else if key = ascii "accepted_transactions" then do
    let acceptedTransactions ← stoull value
    .ok { snapshot with acceptedTransactions := acceptedTransactions }
  else if key = ascii "bootstrapped" then
    .ok { snapshot with bootstrapped := value == ascii "1" }
  else .ok snapshot

def readSnapshotLine (snapshot : ChainSnapshot) (line : ByteString) :
    Except Fault ChainSnapshot :=
  readSnapshotField snapshot (parseLine line).1 (parseLine line).2

/-- What `Load` makes of the contents of the snapshot file. -/
def readSnapshot (text : ByteString) : Except Fault ChainSnapshot :=
  (lines text).foldlM readSnapshotLine {}

/-- The lines of the snapshot file as keys and values. -/
def snapshotFields (snapshot : ChainSnapshot) : List (String × ByteString) :=
  [("height", decimal snapshot.height.toNat),
    ("head", snapshot.headId.toHex),
    ("block_count", decimal snapshot.blockCount.toNat),
    ("accepted_transactions", decimal snapshot.acceptedTransactions.toNat),
    ("bootstrapped", if snapshot.bootstrapped then ascii "1" else ascii "0")]

theorem snapshotText_eq (snapshot : ChainSnapshot) :
    snapshotText snapshot = unlines ((snapshotFields snapshot).map fieldLine) :=
  rfl

theorem snapshotFields_cases {snapshot : ChainSnapshot} {index : Nat}
    {key : String} {value : ByteString}
    (field : (snapshotFields snapshot)[index]? = some (key, value)) :
    (index = 0 ∧ key = "height" ∧ value = decimal snapshot.height.toNat) ∨
    (index = 1 ∧ key = "head" ∧ value = snapshot.headId.toHex) ∨
    (index = 2 ∧ key = "block_count" ∧
      value = decimal snapshot.blockCount.toNat) ∨
    (index = 3 ∧ key = "accepted_transactions" ∧
      value = decimal snapshot.acceptedTransactions.toNat) ∨
    (index = 4 ∧ key = "bootstrapped" ∧
      value = if snapshot.bootstrapped then ascii "1" else ascii "0") := by
  rcases index with _ | _ | _ | _ | _ | index
  · cases field
    exact Or.inl ⟨rfl, rfl, rfl⟩
  · cases field
    exact Or.inr (Or.inl ⟨rfl, rfl, rfl⟩)
  · cases field
    exact Or.inr (Or.inr (Or.inl ⟨rfl, rfl, rfl⟩))
  · cases field
    exact Or.inr (Or.inr (Or.inr (Or.inl ⟨rfl, rfl, rfl⟩)))
  · cases field
    exact Or.inr (Or.inr (Or.inr (Or.inr ⟨rfl, rfl, rfl⟩)))
  · cases field

section SnapshotFields

variable (snapshot : ChainSnapshot) (value : ByteString)

theorem readSnapshotField_height :
    readSnapshotField snapshot (ascii "height") value =
      (stoull value).map fun height => { snapshot with height := height } := by
  rw [readSnapshotField, if_pos rfl]
  cases stoull value <;> rfl

theorem readSnapshotField_head :
    readSnapshotField snapshot (ascii "head") value =
      (Hash.fromHex value false).map fun headId =>
        { snapshot with headId := headId } := by
  rw [readSnapshotField, if_neg (by decide), if_pos rfl]
  cases Hash.fromHex value false <;> rfl

theorem readSnapshotField_blockCount :
    readSnapshotField snapshot (ascii "block_count") value =
      (stoull value).map fun blockCount =>
        { snapshot with blockCount := blockCount } := by
  rw [readSnapshotField, if_neg (by decide), if_neg (by decide), if_pos rfl]
  cases stoull value <;> rfl

theorem readSnapshotField_acceptedTransactions :
    readSnapshotField snapshot (ascii "accepted_transactions") value =
      (stoull value).map fun acceptedTransactions =>
        { snapshot with acceptedTransactions := acceptedTransactions } := by
  rw [readSnapshotField, if_neg (by decide), if_neg (by decide),
    if_neg (by decide), if_pos rfl]
  cases stoull value <;> rfl

theorem readSnapshotField_bootstrapped :
    readSnapshotField snapshot (ascii "bootstrapped") value =
      .ok { snapshot with bootstrapped := value == ascii "1" } := by
  rw [readSnapshotField, if_neg (by decide), if_neg (by decide),
    if_neg (by decide), if_neg (by decide), if_pos rfl]

end SnapshotFields

/-- The snapshot with its first fields only; the others are those of a default
snapshot. -/
def partialSnapshot (snapshot : ChainSnapshot) (index : Nat) : ChainSnapshot where
  height := if 0 < index then snapshot.height else 0
  headId := if 1 < index then snapshot.headId else Hash.zero
  blockCount := if 2 < index then snapshot.blockCount else 0
  acceptedTransactions := if 3 < index then snapshot.acceptedTransactions else 0
  bootstrapped := if 4 < index then snapshot.bootstrapped else false

theorem readSnapshotField_partialSnapshot {snapshot : ChainSnapshot} {index : Nat}
    {key : String} {value : ByteString}
    (field : (snapshotFields snapshot)[index]? = some (key, value)) :
    readSnapshotField (partialSnapshot snapshot index) (ascii key) value =
      .ok (partialSnapshot snapshot (index + 1)) := by
  rcases snapshotFields_cases field with ⟨rfl, rfl, rfl⟩ | ⟨rfl, rfl, rfl⟩ |
    ⟨rfl, rfl, rfl⟩ | ⟨rfl, rfl, rfl⟩ | ⟨rfl, rfl, rfl⟩
  · rw [readSnapshotField_height, stoull_decimal]
    rfl
  · rw [readSnapshotField_head, Hash.fromHex_toHex]
    rfl
  · rw [readSnapshotField_blockCount, stoull_decimal]
    rfl
  · rw [readSnapshotField_acceptedTransactions, stoull_decimal]
    rfl
  · rw [readSnapshotField_bootstrapped]
    cases flag : snapshot.bootstrapped <;> simp +decide [partialSnapshot, flag]

theorem plain_snapshotFields {snapshot : ChainSnapshot} {index : Nat}
    {key : String} {value : ByteString}
    (field : (snapshotFields snapshot)[index]? = some (key, value)) :
    61 ∉ ascii key := by
  rcases snapshotFields_cases field with ⟨-, rfl, -⟩ | ⟨-, rfl, -⟩ | ⟨-, rfl, -⟩ |
    ⟨-, rfl, -⟩ | ⟨-, rfl, -⟩ <;> decide

theorem readSnapshotLine_keyLine (snapshot : ChainSnapshot) {key : String}
    (plain : 61 ∉ ascii key) (value : ByteString) :
    readSnapshotLine snapshot (keyLine key value) =
      readSnapshotField snapshot (ascii key) value := by
  rw [readSnapshotLine, parseLine_keyLine plain]

theorem snapshotFields_oneLine (snapshot : ChainSnapshot) :
    ∀ line ∈ (snapshotFields snapshot).map fieldLine, 10 ∉ line := by
  have hexSpecial : Hex.decForIndex 10 = Hex.invalidValue := by decide
  have number (value : Nat) : 10 ∉ decimal value := notMem_decimal (by decide)
  intro line member
  simp only [snapshotFields, fieldLine, List.map_cons, List.map_nil,
    List.mem_cons, List.not_mem_nil, or_false] at member
  rcases member with rfl | rfl | rfl | rfl | rfl
  · exact keyLine_oneLine (by decide) (number _)
  · exact keyLine_oneLine (by decide) (Hex.notMem_encode hexSpecial)
  · exact keyLine_oneLine (by decide) (number _)
  · exact keyLine_oneLine (by decide) (number _)
  · apply keyLine_oneLine (by decide)
    split <;> decide

theorem readSnapshot_take (snapshot : ChainSnapshot) (index : Nat)
    (within : index ≤ (snapshotFields snapshot).length) :
    (((snapshotFields snapshot).map fieldLine).take index).foldlM
        readSnapshotLine {} =
      .ok (partialSnapshot snapshot index) := by
  rw [← List.length_map fieldLine] at within
  apply foldlM_take (partialSnapshot snapshot) _ within
  intro place line isLine
  obtain ⟨⟨key, value⟩, isField, rfl⟩ := Option.map_eq_some_iff.mp
    (List.getElem?_map.symm.trans isLine)
  rw [fieldLine, readSnapshotLine_keyLine _ (plain_snapshotFields isField)]
  exact readSnapshotField_partialSnapshot isField

/-- Reading the snapshot file gives back the snapshot that was saved. -/
theorem readSnapshot_snapshotText (snapshot : ChainSnapshot) :
    readSnapshot (snapshotText snapshot) = .ok snapshot := by
  have length : ((snapshotFields snapshot).map fieldLine).length = 5 := rfl
  have read := readSnapshot_take snapshot 5 (Nat.le_refl _)
  rw [← length, List.take_length] at read
  rw [readSnapshot, snapshotText_eq,
    lines_unlines (snapshotFields_oneLine snapshot), read]
  rfl

end Storage

end Blocxxi
