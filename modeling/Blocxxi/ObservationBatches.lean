import Blocxxi.Base16Codec
import Blocxxi.DecimalText
import Blocxxi.JsonExtraction
import Mathlib.Algebra.Field.Rat

/-!
# What an observation batch describes

The height, the hash and the statistics of a batch come from three calls, and
the chain of the node may change between any two of them.  The batch describes
a block that the node had on a chain exactly when the tip that was hashed has
the height that was counted, and the block that was measured at this height has
as many transactions as that tip and is told to have its fee.
-/

namespace Blocxxi

namespace Bitcoin

open Blocxxi.Core Cxx ByteText Json JsonGrammar

/-- A block of the node: its hash in hex, the number of its transactions and their fees in
satoshis. -/
structure RemoteBlock where
  hashHex : ByteString
  transactionCount : UInt64
  totalFee : UInt64
  isHex : ∀ character ∈ hashHex, Hex.HexDigit character

/-- The chain of the node, from the genesis block on. -/
structure RemoteChain where
  blocks : List RemoteBlock
  nonempty : blocks ≠ []

namespace RemoteChain

def height (chain : RemoteChain) : Nat := chain.blocks.length - 1

def tip (chain : RemoteChain) : RemoteBlock := chain.blocks.getLast chain.nonempty

def blockAt (chain : RemoteChain) (height : Nat) : Option RemoteBlock :=
  chain.blocks[height]?

theorem blockAt_height (chain : RemoteChain) :
    chain.blockAt chain.height = some chain.tip := by
  rw [blockAt, height, tip, ← List.getLast?_eq_getElem?,
    List.getLast?_eq_some_getLast chain.nonempty]

end RemoteChain

def quoted (text : ByteString) : ByteString := quote :: text ++ [quote]

/-- The number behind the letter of an exponent. -/
def exponentValue : ByteString → Int
  | _ :: 45 :: digits => -digitsValue digits
  | _ :: 43 :: digits => digitsValue digits
  | _ :: digits => digitsValue digits
  | [] => 0

/-- The number that is written with these parts; the first byte of a fraction is the
point. -/
def numberValue (whole fraction exponent : ByteString) : Rat :=
  digitsValue (whole ++ fraction.drop 1) *
    10 ^ (exponentValue exponent - (fraction.drop 1).length)

/-- The text is a number, for an amount of so many satoshis if one stands for `unit` of
them. -/
def Amount (unit : Nat) (text : ByteString) (satoshis : UInt64) : Prop :=
  ∃ whole fraction exponent, IsWhole whole ∧ IsFraction fraction ∧ IsExponent exponent ∧
    text = whole ++ (fraction ++ exponent) ∧
    numberValue whole fraction exponent * unit = satoshis.toNat

/-- The text is an object that has the value under the key. -/
def HasMember (text : ByteString) (key : String) (value : ByteString) : Prop :=
  ∃ object : Object, object.PlainKeys ∧ object.text = text ∧
    ∃ member ∈ object.members, member.key.body = ascii key ∧ member.value = value

/-- The statistics of a block, with its fee as a text. -/
structure TellsStats (unit : Nat) (block : RemoteBlock) (feeText stats : ByteString) :
    Prop where
  txs : HasMember stats "txs" (decimal block.transactionCount.toNat)
  totalfee : HasMember stats "totalfee" feeText
  amount : Amount unit feeText block.totalFee

/-- An answer that is a success tells what holds for the chain, with the fees of blocks as
texts.  The other methods may answer anything. -/
structure AnswersTruly (unit : Nat) (chain : RemoteChain)
    (feeText : RemoteBlock → ByteString) (method params : ByteString)
    (answer : Status × ByteString) : Prop where
  count : answer.1.isOk = true → method = ascii "getblockcount" →
    HasMember answer.2 "result" (decimal chain.height)
  hash : answer.1.isOk = true → method = ascii "getbestblockhash" →
    HasMember answer.2 "result" (quoted chain.tip.hashHex)
  stats : answer.1.isOk = true → method = ascii "getblockstats" →
    ∀ height, params = blockStatsParams height →
      ∃ block stats, chain.blockAt height.toNat = some block ∧
        HasMember answer.2 "result" stats ∧ TellsStats unit block (feeText block) stats

/-- A node that is polled: the chain it has at each time, the times at which it
answers the calls of the poll, and its answers.  They are true for the chain of
the moment, and a hash tells one block, and its place, from all others.  The
amounts may be in satoshis, in bitcoins or in any other unit. -/
structure PolledNode where
  unit : Nat
  feeText : Nat → RemoteBlock → ByteString
  chain : Nat → RemoteChain
  moment : Nat → Nat
  ordered : ∀ index, moment index ≤ moment (index + 1)
  answer : Nat → ByteString → ByteString → Status × ByteString
  truthful : ∀ index method params,
    AnswersTruly unit (chain (moment index)) (feeText index) method params
      (answer index method params)
  identified : ∀ time other height place block found,
    (chain time).blockAt height = some block →
      (chain other).blockAt place = some found →
        block.hashHex = found.hashHex → height = place ∧ block = found

namespace PolledNode

/-- The calls are counted. -/
def transport (node : PolledNode) : RpcTransport Nat :=
  fun method params index => (node.answer index method params, index + 1)

def counted (node : PolledNode) : RemoteChain := node.chain (node.moment 0)

def hashed (node : PolledNode) : RemoteChain := node.chain (node.moment 1)

def measured (node : PolledNode) : RemoteChain := node.chain (node.moment 6)

end PolledNode

section Polls

variable {Double : Type} (doubles : DoubleArithmetic Double)

/-- What the adapter takes the text of a fee for. -/
def satoshisOf (feeText : ByteString) : UInt64 :=
  doubles.toSatoshis ((parseDouble doubles feeText).getD doubles.zero)

/-- The observation is one of a block that is at its height on a chain the node
has during the poll. -/
def DescribesBlock (node : PolledNode) (observation : BlockObservation) : Prop :=
  ∃ time, node.moment 0 ≤ time ∧ time ≤ node.moment 6 ∧
    ∃ block, (node.chain time).blockAt observation.height.toNat = some block ∧
      observation.blockHashHex = block.hashHex ∧
      observation.transactionCount = block.transactionCount ∧
      observation.totalFeeSatoshis = block.totalFee

/-- A poll that succeeds gives a batch that describes a block. -/
def PollConsistent (config : BitcoinCoreRpcConfig) (now : Int64)
    (node : PolledNode) : Prop :=
  (poll doubles config node.transport now 0).1.1.isOk = true →
    ∃ observation,
      (poll doubles config node.transport now 0).1.2.latestBlock = some observation ∧
        DescribesBlock node observation

/-- All calls are answered, and the answers can be read. -/
structure AnswersAll (config : BitcoinCoreRpcConfig) (node : PolledNode)
    (blockCount : UInt64) (bestHash blockStats : ByteString) : Prop where
  count : Answers (node.answer 0 (ascii "getblockcount") (ascii "[]"))
    (parseResult · parseInteger) blockCount
  hash : Answers (node.answer 1 (ascii "getbestblockhash") (ascii "[]"))
    (parseResult · parseString) bestHash
  mempoolInfo : ∃ found, Answers
    (node.answer 2 (ascii "getmempoolinfo") (ascii "[]")) extractResultValue found
  networkInfo : ∃ found, Answers
    (node.answer 3 (ascii "getnetworkinfo") (ascii "[]")) extractResultValue found
  blockchainInfo : ∃ found, Answers
    (node.answer 4 (ascii "getblockchaininfo") (ascii "[]")) extractResultValue found
  entries : ∃ found, Answers
      (node.answer 5 (ascii "getrawmempool") (ascii "[true]"))
      extractResultValue found ∧
    (parseMempoolTransactions doubles found config.maxMempoolTransactions).isSome =
      true
  stats : Answers (node.answer 6 (ascii "getblockstats") (blockStatsParams blockCount))
    extractResultValue blockStats

/-- The tip that is hashed has the height that was counted, and the block that is
measured at this height has as many transactions, and a fee whose text is taken for the
fee of the tip. -/
structure KeepsTip (node : PolledNode) : Prop where
  height : node.hashed.height = node.counted.height
  stats : ∀ block, node.measured.blockAt node.counted.height = some block →
    block.transactionCount = node.hashed.tip.transactionCount ∧
      satoshisOf doubles (node.feeText 6 block) = node.hashed.tip.totalFee

/-- Either some call is not answered with something that can be read, or the tip
stays. -/
def AnswersKeepTip (config : BitcoinCoreRpcConfig) (node : PolledNode) : Prop :=
  ∀ blockCount bestHash blockStats,
    AnswersAll doubles config node blockCount bestHash blockStats →
      KeepsTip doubles node

end Polls

variable {Double : Type} {doubles : DoubleArithmetic Double}
variable {config : BitcoinCoreRpcConfig} {node : PolledNode}

/-- What was observed comes from the answers. -/
theorem answersAll_of_observe {batch observed : ObservationBatch Double} {stop : Nat}
    (observes : observe doubles config node.transport batch 0 =
      (.ok observed, stop)) :
    ∃ blockCount bestHash blockStats,
      AnswersAll doubles config node blockCount bestHash blockStats ∧
        observed.latestBlock =
          some (observeBlock doubles blockCount bestHash blockStats) := by
  simp only [observe, bind_eq_ok, ask_eq_ok, orReject_eq_ok] at observes
  obtain ⟨blockCount, -, ⟨count, rfl⟩, bestHash, -, ⟨hash, rfl⟩,
    mempoolInfo, -, ⟨mempool, rfl⟩, networkInfo, -, ⟨network, rfl⟩,
    blockchainInfo, -, ⟨blockchain, rfl⟩, raw, -, ⟨entries, rfl⟩,
    parsed, -, ⟨parses, rfl⟩, blockStats, -, ⟨stats, rfl⟩, isObserved⟩ := observes
  cases isObserved
  exact ⟨blockCount, bestHash, blockStats,
    { count, hash, stats
      mempoolInfo := ⟨mempoolInfo, mempool⟩
      networkInfo := ⟨networkInfo, network⟩
      blockchainInfo := ⟨blockchainInfo, blockchain⟩
      entries := ⟨raw, entries, Option.isSome_iff_exists.mpr ⟨parsed, parses⟩⟩ },
    rfl⟩

/-- Answers that can be read are observed. -/
theorem observe_of_answersAll {blockCount : UInt64} {bestHash blockStats : ByteString}
    (answers : AnswersAll doubles config node blockCount bestHash blockStats)
    (batch : ObservationBatch Double) :
    ∃ observed, observe doubles config node.transport batch 0 = (.ok observed, 7) := by
  obtain ⟨mempoolInfo, mempool⟩ := answers.mempoolInfo
  obtain ⟨networkInfo, network⟩ := answers.networkInfo
  obtain ⟨blockchainInfo, blockchain⟩ := answers.blockchainInfo
  obtain ⟨raw, entries, parses⟩ := answers.entries
  obtain ⟨parsed, parses⟩ := Option.isSome_iff_exists.mp parses
  simp only [observe, bind_eq_ok, ask_eq_ok, orReject_eq_ok]
  exact ⟨_, blockCount, 1, ⟨answers.count, rfl⟩, bestHash, 2, ⟨answers.hash, rfl⟩,
    mempoolInfo, 3, ⟨mempool, rfl⟩, networkInfo, 4, ⟨network, rfl⟩,
    blockchainInfo, 5, ⟨blockchain, rfl⟩, raw, 6, ⟨entries, rfl⟩,
    parsed, 6, ⟨parses, rfl⟩, blockStats, 7, ⟨answers.stats, rfl⟩, rfl⟩

theorem parseString_quoted {text : ByteString} (plain : backslash ∉ text) :
    parseString (quoted text) = some text := by
  have between : quoted text = quote :: (text ++ [quote]) := by simp [quoted]
  rw [between, parseString_between, unescape_of_notMem plain]

theorem isValue_decimal (number : Nat) : IsValue (decimal number) := by
  have isWhole : IsWhole (decimal number) := by
    have minimal := decimal_minimal number
    have digits := decimal_isDigit number
    cases isDecimal : decimal number with
    | nil => exact absurd isDecimal (decimal_ne_nil number)
    | cons first rest =>
        rw [isDecimal] at minimal digits
        by_cases isZero : first = 48
        · rw [minimal (congrArg some isZero)]
          exact .zero
        · exact .positive first rest isZero digits
  have isScalar := IsScalar.number [] (decimal number) [] [] (.inl rfl) isWhole .none .none
  rw [List.nil_append, List.nil_append, List.append_nil] at isScalar
  exact .scalar isScalar

/-- A number that was rendered is read again, if it is read at all. -/
theorem parseInteger_decimal {number : Nat} {value : UInt64}
    (parsed : parseInteger (decimal number) = some value) :
    value.toNat = number := by
  have trimmed : trim (decimal number) = decimal number := by
    apply trim_of_ends
    intro byte isEnd
    have member : byte ∈ decimal number :=
      isEnd.elim List.mem_of_head? List.mem_of_getLast?
    exact isSpace_of_isDigit (decimal_isDigit number byte member)
  rw [parseInteger, trimmed, Option.map_eq_some_iff] at parsed
  obtain ⟨found, read, rfl⟩ := parsed
  obtain ⟨-, -, rfl, fits⟩ := fromCharsUnsigned_eq_some read
  rw [digitsValue_decimal] at fits ⊢
  exact UInt64.toNat_ofNat_of_lt fits

theorem backslash_notMem_hash (block : RemoteBlock) : backslash ∉ block.hashHex := by
  intro member
  exact absurd (block.isHex backslash member) (by decide)

namespace HasMember

variable {text value : ByteString} {key : String}

theorem isValue (has : HasMember text key value) : IsValue value := by
  obtain ⟨object, -, -, member, inside, -, rfl⟩ := has
  exact object.values member inside

theorem found (has : HasMember text key value) :
    findObjectValue text (ascii key) = some value := by
  obtain ⟨object, plainKeys, rfl, member, inside, isKey, rfl⟩ := has
  rw [← isKey]
  exact findObjectValue_member plainKeys inside

theorem result (has : HasMember text "result" value) : extractResultValue text = some value :=
  has.found

end HasMember

theorem integerMember_decimal {text : ByteString} {key : String} {number : UInt64}
    (has : HasMember text key (decimal number.toNat)) :
    integerMember text (ascii key) = number := by
  have digits : (decimal number.toNat).all isDigit = true :=
    List.all_eq_true.mpr (decimal_isDigit number.toNat)
  rw [integerMember, has.found, Option.getD_some, parseInteger_value has.isValue, integerOf,
    digitsValue_decimal, if_pos ⟨decimal_ne_nil _, digits, number.toNat_lt⟩,
    UInt64.ofNat_toNat]

/-- The statistics are read, and their fee is what its text is taken for. -/
theorem TellsStats.observed {unit : Nat} {block : RemoteBlock} {feeText stats : ByteString}
    (tells : TellsStats unit block feeText stats) (blockCount : UInt64)
    (bestHash : ByteString) :
    observeBlock doubles blockCount bestHash stats =
      ⟨blockCount, bestHash, block.transactionCount, satoshisOf doubles feeText⟩ := by
  rw [observeBlock, integerMember_decimal tells.txs, doubleMember, tells.totalfee.found,
    Option.getD_some, satoshisOf]

/-- The batch of a poll comes from blocks of the chains at the three calls. -/
theorem AnswersAll.tells {blockCount : UInt64} {bestHash blockStats : ByteString}
    (answers : AnswersAll doubles config node blockCount bestHash blockStats) :
    blockCount.toNat = node.counted.height ∧ bestHash = node.hashed.tip.hashHex ∧
      ∃ block, node.measured.blockAt node.counted.height = some block ∧
        TellsStats node.unit block (node.feeText 6 block) blockStats := by
  have count : blockCount.toNat = node.counted.height := by
    have truth := ((node.truthful 0 _ _).count answers.count.1 rfl).result
    have read : parseResult _ parseInteger = some blockCount := answers.count.2
    rw [parseResult, truth] at read
    exact parseInteger_decimal read
  have hash : bestHash = node.hashed.tip.hashHex := by
    have truth := ((node.truthful 1 _ _).hash answers.hash.1 rfl).result
    have read : parseResult _ parseString = some bestHash := answers.hash.2
    rw [parseResult, truth] at read
    exact (Option.some.inj
      ((parseString_quoted (backslash_notMem_hash node.hashed.tip)).symm.trans
        read)).symm
  obtain ⟨block, stats, isAt, truth, tells⟩ :=
    (node.truthful 6 _ _).stats answers.stats.1 rfl blockCount rfl
  rw [count] at isAt
  cases answers.stats.2.symm.trans truth.result
  exact ⟨count, hash, block, isAt, tells⟩

/-- A batch describes a block exactly if the tip stays. -/
theorem describesBlock_iff {blockCount : UInt64} {bestHash blockStats : ByteString}
    (answers : AnswersAll doubles config node blockCount bestHash blockStats) :
    DescribesBlock node (observeBlock doubles blockCount bestHash blockStats) ↔
      KeepsTip doubles node := by
  obtain ⟨count, rfl, measuredBlock, isMeasured, tells⟩ := answers.tells
  rw [tells.observed]
  constructor
  · rintro ⟨time, -, -, block, isAt, hash, transactions, fee⟩
    obtain ⟨sameHeight, rfl⟩ := node.identified time (node.moment 1) _ _ _ _ isAt
      node.hashed.blockAt_height hash.symm
    refine ⟨sameHeight.symm.trans count, fun other isOther => ?_⟩
    rw [isMeasured] at isOther
    cases isOther
    exact ⟨transactions, fee⟩
  · intro keeps
    have order : Monotone node.moment := monotone_nat_of_le_succ node.ordered
    obtain ⟨transactions, fee⟩ := keeps.stats measuredBlock isMeasured
    refine ⟨node.moment 1, order (by omega), order (by omega), node.hashed.tip,
      ?_, rfl, transactions, fee⟩
    change (node.hashed).blockAt blockCount.toNat = _
    rw [count, ← keeps.height, RemoteChain.blockAt_height]

/-- Where the amounts of the node are taken for what they are, the tip stays if the block
that is measured has its transactions and its fee. -/
theorem AnswersAll.keepsTip_iff {blockCount : UInt64} {bestHash blockStats : ByteString}
    (answers : AnswersAll doubles config node blockCount bestHash blockStats)
    (exact : ∀ text satoshis, Amount node.unit text satoshis →
      satoshisOf doubles text = satoshis) :
    KeepsTip doubles node ↔
      node.hashed.height = node.counted.height ∧
        ∀ block, node.measured.blockAt node.counted.height = some block →
          block.transactionCount = node.hashed.tip.transactionCount ∧
            block.totalFee = node.hashed.tip.totalFee := by
  obtain ⟨-, -, measuredBlock, isMeasured, tells⟩ := answers.tells
  have fee := exact _ _ tells.amount
  have same : ∀ block, node.measured.blockAt node.counted.height = some block →
      satoshisOf doubles (node.feeText 6 block) = block.totalFee := by
    intro block isBlock
    rw [isMeasured] at isBlock
    cases isBlock
    exact fee
  constructor
  · rintro ⟨height, stats⟩
    exact ⟨height, fun block isBlock => same block isBlock ▸ stats block isBlock⟩
  · rintro ⟨height, stats⟩
    exact ⟨height, fun block isBlock => (same block isBlock).symm ▸ stats block isBlock⟩

/-- Whole numbers are `double`s. -/
def wholeDoubles : DoubleArithmetic Nat where
  zero := 0
  read := fromCharsUnsigned
  toSatoshis value := UInt64.ofNat (value * 100000000)

def genesisBlock : RemoteBlock where
  hashHex := List.replicate 64 48
  transactionCount := 1
  totalFee := 0
  isHex := by decide +kernel

def newBlock : RemoteBlock where
  hashHex := List.replicate 64 49
  transactionCount := 2
  totalFee := 0
  isHex := by decide +kernel

/-- The chain of a node to which a block arrives behind the first call. -/
def growingChain : Nat → RemoteChain
  | 0 => ⟨[genesisBlock], by simp⟩
  | _ + 1 => ⟨[genesisBlock, newBlock], by simp⟩

/-- The answer of a node with a result. -/
def reply (result : ByteString) : Status × ByteString :=
  (.success "", ascii "\x7b\"result\":" ++ result ++
    ascii ",\"error\":null,\"id\":\"blocxxi\"\x7d\n")

theorem isPlain_id : isPlain "id" = true := by decide

theorem isPlain_blocxxi : isPlain "blocxxi" = true := by decide

theorem isBlank_lineFeed : ∀ byte ∈ ([10] : ByteString), isBlank byte = true :=
  List.forall_mem_singleton.mpr rfl

/-- The object that an answer is. -/
def replyObject {result : ByteString} (isValue : IsValue result) : Object where
  before := .empty
  blank := .empty
  members :=
    [plainMember "result" (by decide) result,
      plainMember "error" (by decide) (ascii "null"),
      plainMember "id" isPlain_id (plainLiteral "blocxxi" isPlain_blocxxi).text]
  values := by
    simp only [List.forall_mem_cons]
    exact ⟨isValue, .scalar .nullName, .string _, List.forall_mem_nil _⟩
  after := ⟨[10], isBlank_lineFeed⟩

theorem hasMember_reply {result : ByteString} (isValue : IsValue result) :
    HasMember (reply result).2 "result" result := by
  refine ⟨replyObject isValue, ⟨?_, ?_⟩, ?_, _, List.mem_cons_self, ?_, rfl⟩
  · simp only [replyObject, List.forall_mem_cons, plainMember, plainLiteral_body]
    exact ⟨by decide, by decide, by decide, List.forall_mem_nil _⟩
  · simp only [replyObject, List.map_cons, List.map_nil, plainMember, plainLiteral_body]
    decide
  · simp only [replyObject, Object.text, Object.inner, objectText, listed, List.map_cons,
      List.map_nil, separated, Blank.empty, Literal.text, plainLiteral_body,
      plainMember_text, reply]
    simp [ascii]
  · exact @plainLiteral_body "result" (by decide)

/-- The statistics of the genesis block. -/
def genesisStats : ByteString := ascii "\x7b\"totalfee\":0,\"txs\":1\x7d"

def statsObject : Object where
  before := .empty
  blank := .empty
  members :=
    [plainMember "totalfee" (by decide) [48], plainMember "txs" (by decide) [49]]
  values := by
    simp only [List.forall_mem_cons]
    exact ⟨isValue_decimal 0, isValue_decimal 1, List.forall_mem_nil _⟩
  after := .empty

def growingAnswer (index : Nat) (method params : ByteString) : Status × ByteString :=
  if method = ascii "getblockcount" then reply (decimal (growingChain index).height)
  else if method = ascii "getbestblockhash" then
    reply (quoted (growingChain index).tip.hashHex)
  else if method = ascii "getblockstats" then
    if params = blockStatsParams 0 then reply genesisStats
    else (.failure .rejected "rpc transport returned non-200 response", [])
  else reply (ascii "\x7b\x7d")

theorem blockStatsParams_injective : Function.Injective blockStatsParams := by
  intro first second same
  unfold blockStatsParams at same
  rw [List.append_assoc, List.append_assoc] at same
  exact UInt64.toNat_inj.mp (decimal_injective
    (List.append_cancel_right (List.append_cancel_left same)))

theorem genesisStats_tell : TellsStats 100000000 genesisBlock (ascii "0") genesisStats := by
  have plainKeys : statsObject.PlainKeys := by
    constructor
    · simp only [statsObject, List.forall_mem_cons, plainMember, plainLiteral_body]
      exact ⟨by decide, by decide, List.forall_mem_nil _⟩
    · simp only [statsObject, List.map_cons, List.map_nil, plainMember, plainLiteral_body]
      decide
  have isText : statsObject.text = genesisStats := by decide +kernel
  constructor
  · exact ⟨statsObject, plainKeys, isText, _, List.mem_cons_of_mem _ List.mem_cons_self,
      @plainLiteral_body "txs" (by decide), by decide⟩
  · exact ⟨statsObject, plainKeys, isText, _, List.mem_cons_self,
      @plainLiteral_body "totalfee" (by decide), rfl⟩
  · refine ⟨ascii "0", [], [], .zero, .none, .none, rfl, ?_⟩
    simp [numberValue, digitsValue, digitValue, ascii, genesisBlock]

theorem growingAnswer_true (index : Nat) (method params : ByteString) :
    AnswersTruly 100000000 (growingChain index) (fun _ => ascii "0") method params
      (growingAnswer index method params) where
  count := by
    rintro - rfl
    exact hasMember_reply (isValue_decimal _)
  hash := by
    rintro - rfl
    have isLiteral : ∀ text : String, (plain : isPlain text = true) →
        IsValue (quoted (ascii text)) := by
      intro text plain
      have isString := IsValue.string (plainLiteral text plain)
      rwa [Literal.text, plainLiteral_body] at isString
    refine hasMember_reply ?_
    cases index with
    | zero => exact isLiteral (String.ofList (List.replicate 64 '0')) (by decide +kernel)
    | succ index => exact isLiteral (String.ofList (List.replicate 64 '1')) (by decide +kernel)
  stats := by
    rintro isOk rfl height rfl
    unfold growingAnswer at isOk ⊢
    rw [if_neg (by decide), if_neg (by decide), if_pos rfl] at isOk ⊢
    split at isOk
    · next same =>
        rw [if_pos same, blockStatsParams_injective same]
        refine ⟨genesisBlock, genesisStats, ?_, hasMember_reply ?_, genesisStats_tell⟩
        · cases index <;> rfl
        · have isObject := IsValue.object .empty statsObject.members statsObject.values
          exact isObject
    · cases isOk

theorem growingChain_identified {time height : Nat} {block : RemoteBlock}
    (isAt : (growingChain time).blockAt height = some block) :
    height = 0 ∧ block = genesisBlock ∨ height = 1 ∧ block = newBlock := by
  cases time with
  | zero =>
      cases height with
      | zero => exact .inl ⟨rfl, (Option.some.inj isAt).symm⟩
      | succ height => cases isAt
  | succ time =>
      cases height with
      | zero => exact .inl ⟨rfl, (Option.some.inj isAt).symm⟩
      | succ height =>
          cases height with
          | zero => exact .inr ⟨rfl, (Option.some.inj isAt).symm⟩
          | succ height => cases isAt

def growingNode : PolledNode where
  unit := 100000000
  feeText _ _ := ascii "0"
  chain := growingChain
  moment := id
  ordered index := Nat.le_succ index
  answer := growingAnswer
  truthful := growingAnswer_true
  identified := by
    intro time other height place block found isAt isOther same
    rcases growingChain_identified isAt with ⟨rfl, rfl⟩ | ⟨rfl, rfl⟩ <;>
      rcases growingChain_identified isOther with ⟨rfl, rfl⟩ | ⟨rfl, rfl⟩
    · exact ⟨rfl, rfl⟩
    · exact absurd same (by decide)
    · exact absurd same (by decide)
    · exact ⟨rfl, rfl⟩

end Bitcoin

end Blocxxi
