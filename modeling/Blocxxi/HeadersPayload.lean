import Blocxxi.BlockCursorSafety
import Blocxxi.BlockRoundTrip
import Blocxxi.HeadersImport

/-!
# Payloads of headers

A payload is a count and that many headers, each followed by the number of its
transactions, which is zero.  Written so it is read again, whatever follows
it.  For every other payload the passes of the loop are logged with all
positions that the cursor takes: no position lies behind the payload, and a pass
that is not the last consumes 81 bytes, so an announced count buys no passes
that the payload does not pay for.
-/

namespace Blocxxi

namespace Bitcoin

open Blocxxi.Core Cxx ByteText Chain CursorReader CursorReader.Reader ListParts

/-- The header that 80 bytes spell. -/
def headerOfBytes (doubleSha256 : ByteString → Hash256) (bytes : ByteString)
    (height : UInt32) : Header where
  height := height
  hashHex := toHex (doubleSha256 bytes).bytes.reverse
  previousHashHex := wireHashToHex ((bytes.drop 4).take 32)
  merkleRootHex := wireHashToHex ((bytes.drop 36).take 32)
  version := UInt32.ofNat (littleEndian (bytes.take 4))
  timestamp := UInt32.ofNat (littleEndian ((bytes.drop 68).take 4))
  bits := UInt32.ofNat (littleEndian ((bytes.drop 72).take 4))
  nonce := UInt32.ofNat (littleEndian ((bytes.drop 76).take 4))

/-- Headers that follow each other, from a height on. -/
def headersOfBytes (doubleSha256 : ByteString → Hash256) (height : Nat)
    (headers : List ByteString) : List Header :=
  headers.mapIdx fun index bytes =>
    headerOfBytes doubleSha256 bytes (UInt32.ofNat (height + index))

theorem headersOfBytes_cons (doubleSha256 : ByteString → Hash256) (height : Nat)
    (bytes : ByteString) (headers : List ByteString) :
    headersOfBytes doubleSha256 height (bytes :: headers) =
      headerOfBytes doubleSha256 bytes (UInt32.ofNat height) ::
        headersOfBytes doubleSha256 (height + 1) headers := by
  have shifted (index : Nat) : height + (index + 1) = height + 1 + index := by omega
  rw [headersOfBytes, List.mapIdx_cons, headersOfBytes]
  simp only [Nat.add_zero, ← shifted]

/-- The count, the headers with their zero bytes, and whatever follows. -/
def headersBytes (headers : List ByteString) (trailing : ByteString) :
    ByteString :=
  compactSizeBytes (UInt64.ofNat headers.length) ++
    (headers.flatMap (· ++ [0]) ++ trailing)

section Written

variable {payload : Span UInt8}

/-- A slice of a part is a slice of the payload. -/
theorem bytesAt_slice {start : Nat} {part : ByteString}
    (stands : PartAt payload.items start part) {offset width : Nat}
    (inside : offset + width ≤ part.length) :
    bytesAt payload (start + offset) width = (part.drop offset).take width := by
  obtain ⟨after, behind⟩ := stands.drop_eq
  rw [bytesAt, ← List.drop_drop, behind, List.drop_append_of_le_length (by omega),
    List.take_append_of_le_length (by rw [List.length_drop]; omega)]

theorem wireHeader_part {start : Nat} {bytes : ByteString}
    (stands : PartAt payload.items start bytes) (sized : bytes.length = 80)
    (doubleSha256 : ByteString → Hash256) (height : UInt32) :
    wireHeader doubleSha256 payload start height =
      headerOfBytes doubleSha256 bytes height := by
  have slice {offset width : Nat} (inside : offset + width ≤ 80) :
      bytesAt payload (start + offset) width =
        (bytes.drop offset).take width :=
    bytesAt_slice stands (by omega)
  have whole : bytesAt payload start 80 = bytes := by
    rw [← sized]
    exact bytesAt_part stands
  have first : bytesAt payload start 4 = bytes.take 4 :=
    slice (show 0 + 4 ≤ 80 by decide)
  rw [wireHeader, headerOfBytes, whole, first, slice (by decide), slice (by decide),
    slice (by decide), slice (by decide), slice (by decide)]

theorem compactSizeAt_part {start : Nat} {value : UInt64}
    (stands : PartAt payload.items start (compactSizeBytes value)) :
    compactSizeAt payload start =
      (some value, start + (compactSizeBytes value).length) := by
  obtain ⟨found, behind⟩ :=
    reads_readCompactSize value start stands { offset := start } rfl
  unfold compactSizeAt
  split
  · rename_i result cursor ran
    rw [ran] at found behind
    cases found
    exact congrArg _ behind
  · rename_i halt cursor ran
    rw [ran] at found
    cases found

/-- The height of a header, counted without wrapping first. -/
theorem height_eq (locatorHeight : UInt32) (index : Nat) :
    locatorHeight + UInt32.ofNat index + 1 =
      UInt32.ofNat (locatorHeight.toNat + index + 1) := by
  apply UInt32.toNat_inj.mp
  rw [UInt32.toNat_add, UInt32.toNat_add, UInt32.toNat_ofNat', UInt32.toNat_ofNat']
  change ((locatorHeight.toNat + index % 2 ^ 32) % 2 ^ 32 + 1) % 2 ^ 32 =
    (locatorHeight.toNat + index + 1) % 2 ^ 32
  omega

variable (doubleSha256 : ByteString → Hash256) (locatorHeight : UInt32)

theorem parseHeadersFrom_written {headers : List ByteString}
    (sized : ∀ bytes ∈ headers, bytes.length = 80) {start : Nat}
    (stands : PartAt payload.items start (headers.flatMap (· ++ [0])))
    (index : Nat) (result : SignetHeadersResult) :
    parseHeadersFrom doubleSha256 payload locatorHeight headers.length
        (UInt32.ofNat index) start result =
      (.success "",
        { result with
          headerHashes := result.headerHashes ++
            (headersOfBytes doubleSha256 (locatorHeight.toNat + index + 1)
              headers).map Header.hashHex
          headers := result.headers ++
            headersOfBytes doubleSha256 (locatorHeight.toNat + index + 1)
              headers }) := by
  induction headers generalizing start index result with
  | nil => simp [parseHeadersFrom, headersOfBytes]
  | cons bytes headers induction =>
      obtain ⟨isSized, restSized⟩ := List.forall_mem_cons.mp sized
      rw [List.flatMap_cons, partAt_append, partAt_append, List.length_append,
        isSized] at stands
      obtain ⟨⟨standsHeader, standsCount⟩, standsRest⟩ := stands
      have inside := part_inside standsCount
      have sizeFits := payload.size_lt
      have oneByte : ([0] : ByteString).length = 1 := rfl
      rw [oneByte] at inside standsRest
      have behind : sizeAdd start 80 = start + 80 := sizeAdd_of_lt (by omega)
      have zeroStands : PartAt payload.items (start + 80) (compactSizeBytes 0) :=
        standsCount
      have counted : compactSizeAt payload (start + 80) =
          (some 0, start + 80 + 1) :=
        compactSizeAt_part zeroStands
      have next : UInt32.ofNat index + 1 = UInt32.ofNat (index + 1) := by
        rw [UInt32.ofNat_add]
        rfl
      rw [List.length_cons, parseHeadersFrom, behind, if_neg (by omega)]
      simp only [counted, ne_eq, not_true_eq_false, if_false]
      rw [wireHeader_part standsHeader isSized, height_eq, next,
        induction restSized (Nat.add_assoc start 80 1 ▸ standsRest),
        headersOfBytes_cons, ← Nat.add_assoc locatorHeight.toNat index 1]
      simp only [List.map_cons, List.append_assoc, List.singleton_append]

theorem flatMap_bytes_length {headers : List ByteString}
    (sized : ∀ bytes ∈ headers, bytes.length = 80) :
    (headers.flatMap (· ++ [0])).length = 81 * headers.length := by
  induction headers with
  | nil => rfl
  | cons bytes headers induction =>
      obtain ⟨isSized, restSized⟩ := List.forall_mem_cons.mp sized
      simp only [List.flatMap_cons, List.length_append, List.length_cons,
        List.length_nil, isSized, induction restSized]
      omega

/-- What was written is read again, with nothing of what follows it. -/
theorem parseHeadersPayload_written {headers : List ByteString}
    (nonempty : headers ≠ []) (sized : ∀ bytes ∈ headers, bytes.length = 80)
    {trailing : ByteString} (isBytes : payload.items = headersBytes headers trailing)
    {result : SignetHeadersResult} (noHashes : result.headerHashes = [])
    (noHeaders : result.headers = []) :
    parseHeadersPayload doubleSha256 payload locatorHeight result =
      (.success "",
        { result with
          headerHashes :=
            (headersOfBytes doubleSha256 (locatorHeight.toNat + 1) headers).map
              Header.hashHex
          headers :=
            headersOfBytes doubleSha256 (locatorHeight.toNat + 1) headers }) := by
  have stands : PartAt payload.items 0 (headersBytes headers trailing) :=
    isBytes ▸ partAt_all payload.items
  obtain ⟨standsCount, standsRest⟩ := partAt_append.mp stands
  rw [Nat.zero_add] at standsRest
  have inside := part_inside standsRest.left
  rw [flatMap_bytes_length sized] at inside
  have sizeFits := payload.size_lt
  have someHeaders := List.length_pos_iff.mpr nonempty
  have counted : (UInt64.ofNat headers.length).toNat = headers.length := by
    rw [UInt64.toNat_ofNat']
    omega
  have positive : UInt64.ofNat headers.length ≠ 0 := by
    intro isZero
    rw [isZero] at counted
    change 0 = headers.length at counted
    omega
  unfold parseHeadersPayload
  rw [compactSizeAt_part standsCount]
  dsimp only
  rw [if_neg positive, counted, Nat.zero_add]
  have parsed := parseHeadersFrom_written doubleSha256 locatorHeight sized
    standsRest.left 0 result
  rwa [noHashes, noHeaders, List.nil_append, List.nil_append, Nat.add_zero] at parsed

end Written

/-- The positions that the cursor takes while a number is read. -/
def compactSizeTrail (payload : Span UInt8) (offset : Nat) : List Nat :=
  ((readCompactSize payload).wrapping { offset := offset }).2.moves.map Move.after

/-- A parse, with the positions of its cursor in front of the loop and in each
pass, complete or not. -/
structure LoggedParse where
  outcome : Status × SignetHeadersResult
  ahead : List Nat := []
  passes : List (List Nat) := []

section Logged

variable (doubleSha256 : ByteString → Hash256)

def parseHeadersFromLogged (payload : Span UInt8) (locatorHeight : UInt32) :
    Nat → UInt32 → Nat → SignetHeadersResult → LoggedParse
  | 0, _, _, result => { outcome := (.success "", result) }
  | count + 1, index, offset, result =>
      if payload.size < sizeAdd offset 80 then
        { outcome := (.failure .rejected "headers payload is truncated", result)
          passes := [[offset]] }
      else
        let (transactionCount, behind) :=
          compactSizeAt payload (sizeAdd offset 80)
        let pass :=
          offset :: sizeAdd offset 80 :: compactSizeTrail payload (sizeAdd offset 80)
        if transactionCount ≠ some 0 then
          { outcome :=
              (.failure .rejected "headers payload contains invalid txn count",
                result)
            passes := [pass] }
        else
          let header :=
            wireHeader doubleSha256 payload offset (locatorHeight + index + 1)
          let parse :=
            parseHeadersFromLogged payload locatorHeight count (index + 1) behind
              { result with
                headerHashes := result.headerHashes ++ [header.hashHex]
                headers := result.headers ++ [header] }
          { parse with passes := pass :: parse.passes }

def parseHeadersPayloadLogged (payload : Span UInt8) (locatorHeight : UInt32)
    (result : SignetHeadersResult) : LoggedParse :=
  match compactSizeAt payload 0 with
  | (none, _) =>
      { outcome := (.failure .rejected "headers response is empty", result)
        ahead := 0 :: compactSizeTrail payload 0 }
  | (some count, offset) =>
      if count = 0 then
        { outcome := (.failure .rejected "headers response is empty", result)
          ahead := 0 :: compactSizeTrail payload 0 }
      else
        { parseHeadersFromLogged doubleSha256 payload locatorHeight count.toNat 0
            offset result with
          ahead := 0 :: compactSizeTrail payload 0 }

theorem parseHeadersFromLogged_outcome (payload : Span UInt8)
    (locatorHeight : UInt32) (count : Nat) (index : UInt32) (offset : Nat)
    (result : SignetHeadersResult) :
    (parseHeadersFromLogged doubleSha256 payload locatorHeight count index offset
      result).outcome =
        parseHeadersFrom doubleSha256 payload locatorHeight count index offset
          result := by
  induction count generalizing index offset result with
  | zero => rfl
  | succ count induction =>
      unfold parseHeadersFromLogged parseHeadersFrom
      split
      · rfl
      dsimp only
      split
      · rfl
      exact induction _ _ _

/-- The log changes nothing. -/
theorem parseHeadersPayloadLogged_outcome (payload : Span UInt8)
    (locatorHeight : UInt32) (result : SignetHeadersResult) :
    (parseHeadersPayloadLogged doubleSha256 payload locatorHeight result).outcome =
      parseHeadersPayload doubleSha256 payload locatorHeight result := by
  unfold parseHeadersPayloadLogged parseHeadersPayload
  rcases compactSizeAt payload 0 with ⟨_ | count, offset⟩
  · rfl
  · dsimp only
    split
    · rfl
    · exact parseHeadersFromLogged_outcome doubleSha256 payload locatorHeight _ _ _ _

end Logged

section Inside

variable {payload : Span UInt8} {offset : Nat}

theorem advance_requests (limit count : Nat) (cursor : Cursor) :
    ((advance limit count : Reader Stop Bool).exactly cursor).2.requests =
      cursor.requests ++ [⟨cursor.offset, count⟩] := by
  change (Reader.exactly (if limit < cursor.offset + count then pure false else
    step count >>= fun _ => pure true) _).2.requests = _
  split <;> rfl

theorem readLittleEndian_requests (width : Nat) (cursor : Cursor) :
    ((readLittleEndian payload width).exactly cursor).2.requests =
      cursor.requests ++ [⟨cursor.offset, width⟩] := by
  rw [← advance_requests payload.size]
  change (continueWith _ _ ((advance payload.size width).exactly cursor)).2.requests = _
  unfold continueWith
  split <;> rfl

theorem readCompactSize_small :
    ((readCompactSize payload).exactly { offset := offset }).2.Small := by
  have sizeFits := payload.size_lt
  have narrow := compactWidth_le (byteAt payload offset)
  intro request member
  change request ∈ (Reader.exactly (if payload.size ≤ offset then _ else _)
    { offset := offset }).2.requests at member
  split at member
  · cases member
  change request ∈ (Reader.exactly (if byteAt payload offset < 253 then _ else _)
    _).2.requests at member
  split at member
  · cases member
  rw [readLittleEndian_requests] at member
  cases List.mem_singleton.mp member
  change offset + 1 + compactWidth (byteAt payload offset) < 2 ^ 64
  omega

theorem safeAt_compactSize (inside : offset ≤ payload.size) :
    SafeAt payload.size (readCompactSize payload) { offset := offset } :=
  safeAt_readCompactSize inside

/-- On the machine the count is read as the format means it. -/
theorem readCompactSize_wrapping (inside : offset ≤ payload.size) :
    (readCompactSize payload).wrapping { offset := offset } =
      (readCompactSize payload).exactly { offset := offset } :=
  (safeAt_compactSize inside).agrees readCompactSize_small

theorem compactSizeTrail_inside (inside : offset ≤ payload.size) :
    ∀ place ∈ compactSizeTrail payload offset, place ≤ payload.size := by
  intro place member
  rw [compactSizeTrail, readCompactSize_wrapping inside] at member
  obtain ⟨move, isMove, rfl⟩ := List.mem_map.mp member
  rcases (safeAt_compactSize inside).moves move isMove with earlier | forward
  · cases earlier
  · exact forward.2

theorem compactSizeAt_eq (inside : offset ≤ payload.size) {found : Option UInt64}
    {behind : Nat} (counted : compactSizeAt payload offset = (found, behind)) :
    behind ≤ payload.size ∧ (found ≠ none → offset < behind) := by
  have ends := (safeAt_compactSize inside).inside
  unfold compactSizeAt at counted
  rw [readCompactSize_wrapping inside] at counted
  split at counted
  · rename_i result cursor ran
    cases counted
    rw [ran] at ends
    refine ⟨ends, fun some => ?_⟩
    obtain ⟨value, rfl⟩ := Option.ne_none_iff_exists'.mp some
    exact readCompactSize_arrives ran
  · rename_i halt cursor ran
    cases counted
    rw [ran] at ends
    exact ⟨ends, fun some => absurd rfl some⟩

/-- What the passes from an offset on keep: the positions are inside, each pass
but the last consumes 81 bytes, both lists grow alike, and all of the announced
headers are there if the loop succeeds. -/
structure PassesInside (payload : Span UInt8) (offset count : Nat)
    (before : SignetHeadersResult) (parse : LoggedParse) : Prop where
  inside : ∀ pass ∈ parse.passes, ∀ place ∈ pass, place ≤ payload.size
  few : 81 * parse.passes.length ≤ payload.size - offset + 81
  alike : before.headerHashes.length = before.headers.length →
    parse.outcome.2.headerHashes.length = parse.outcome.2.headers.length
  complete : parse.outcome.1.isOk = true →
    parse.outcome.2.headers.length = before.headers.length + count

theorem passesInside_stopped {count : Nat} {result : SignetHeadersResult}
    {pass : List Nat} (inside : ∀ place ∈ pass, place ≤ payload.size)
    (message : String) :
    PassesInside payload offset count result
      { outcome := (.failure .rejected message, result), passes := [pass] } where
  inside := List.forall_mem_singleton.mpr inside
  few := Nat.le_add_left 81 _
  alike := id
  complete := fun isOk => absurd isOk Bool.false_ne_true

theorem parseHeadersFromLogged_inside (doubleSha256 : ByteString → Hash256)
    (locatorHeight : UInt32) (count : Nat) (index : UInt32)
    (inside : offset ≤ payload.size) (result : SignetHeadersResult) :
    PassesInside payload offset count result
      (parseHeadersFromLogged doubleSha256 payload locatorHeight count index offset
        result) := by
  induction count generalizing index offset result with
  | zero =>
      exact ⟨fun _ member => (List.not_mem_nil member).elim, Nat.zero_le _, id,
        fun _ => rfl⟩
  | succ count induction =>
      have sizeFits := payload.size_lt
      have behindHeader : sizeAdd offset 80 = offset + 80 := sizeAdd_of_lt (by omega)
      unfold parseHeadersFromLogged
      rw [behindHeader]
      split
      · exact passesInside_stopped (List.forall_mem_singleton.mpr inside) _
      rename_i complete
      have headerInside : offset + 80 ≤ payload.size := Nat.not_lt.mp complete
      have passInside : ∀ place ∈ offset :: (offset + 80) ::
          compactSizeTrail payload (offset + 80), place ≤ payload.size :=
        List.forall_mem_cons.mpr ⟨inside, List.forall_mem_cons.mpr
          ⟨headerInside, compactSizeTrail_inside headerInside⟩⟩
      rcases counted : compactSizeAt payload (offset + 80) with ⟨found, behind⟩
      dsimp only
      split
      · exact passesInside_stopped passInside _
      rename_i isZero
      obtain ⟨behindInside, advances⟩ := compactSizeAt_eq headerInside counted
      have consumed : offset + 80 < behind := by
        apply advances
        rw [not_not.mp isZero]
        exact Option.some_ne_none _
      have rest := induction (index + 1) behindInside
        { result with
          headerHashes := result.headerHashes ++
            [(wireHeader doubleSha256 payload offset (locatorHeight + index + 1)).hashHex]
          headers := result.headers ++
            [wireHeader doubleSha256 payload offset (locatorHeight + index + 1)] }
      refine ⟨List.forall_mem_cons.mpr ⟨passInside, rest.inside⟩, ?_, ?_, ?_⟩
      · have few := rest.few
        rw [List.length_cons]
        omega
      · intro alike
        apply rest.alike
        rw [List.length_append, List.length_append, alike]
        rfl
      · intro isOk
        rw [rest.complete isOk, List.length_append, List.length_singleton]
        omega

/-- What a parse into empty lists keeps, whatever the payload says. -/
structure ParseInside (payload : Span UInt8) (parse : LoggedParse) : Prop where
  ahead : ∀ place ∈ parse.ahead, place ≤ payload.size
  inside : ∀ pass ∈ parse.passes, ∀ place ∈ pass, place ≤ payload.size
  few : parse.passes.length ≤ payload.size / 81 + 1
  alike : parse.outcome.2.headerHashes.length = parse.outcome.2.headers.length
  complete : parse.outcome.1.isOk = true →
    ∃ count, (compactSizeAt payload 0).1 = some count ∧ count ≠ 0 ∧
      parse.outcome.2.headers.length = count.toNat

theorem parseHeadersPayloadLogged_inside (doubleSha256 : ByteString → Hash256)
    (payload : Span UInt8) (locatorHeight : UInt32) {result : SignetHeadersResult}
    (noHashes : result.headerHashes = []) (noHeaders : result.headers = []) :
    ParseInside payload
      (parseHeadersPayloadLogged doubleSha256 payload locatorHeight result) := by
  have aheadInside : ∀ place ∈ 0 :: compactSizeTrail payload 0,
      place ≤ payload.size :=
    List.forall_mem_cons.mpr
      ⟨Nat.zero_le _, compactSizeTrail_inside (Nat.zero_le _)⟩
  have empty : ParseInside payload
      { outcome := (.failure .rejected "headers response is empty", result)
        ahead := 0 :: compactSizeTrail payload 0 } :=
    ⟨aheadInside, fun _ member => (List.not_mem_nil member).elim, Nat.zero_le _,
      by rw [noHashes, noHeaders]; rfl, fun isOk => absurd isOk Bool.false_ne_true⟩
  unfold parseHeadersPayloadLogged
  rcases counted : compactSizeAt payload 0 with ⟨_ | count, offset⟩
  · exact empty
  dsimp only
  split
  · exact empty
  rename_i positive
  obtain ⟨offsetInside, -⟩ := compactSizeAt_eq (Nat.zero_le _) counted
  have loop := parseHeadersFromLogged_inside doubleSha256 locatorHeight count.toNat 0
    offsetInside result
  refine ⟨aheadInside, loop.inside, ?_, loop.alike ?_, fun isOk => ?_⟩
  · have few := loop.few
    dsimp only
    omega
  · rw [noHashes, noHeaders]
    rfl
  · refine ⟨count, congrArg Prod.fst counted, positive, ?_⟩
    rw [loop.complete isOk, noHeaders, List.length_nil, Nat.zero_add]

end Inside

/-- A written payload is read again, and no payload takes the cursor outside or
the loop further than its bytes allow. -/
theorem headersPayload_parsed (doubleSha256 : ByteString → Hash256)
    (locatorHeight : UInt32) {result : SignetHeadersResult}
    (noHashes : result.headerHashes = []) (noHeaders : result.headers = []) :
    (∀ (payload : Span UInt8) (headers : List ByteString) (trailing : ByteString),
      headers ≠ [] → (∀ bytes ∈ headers, bytes.length = 80) →
      payload.items = headersBytes headers trailing →
      parseHeadersPayload doubleSha256 payload locatorHeight result =
        (.success "",
          { result with
            headerHashes :=
              (headersOfBytes doubleSha256 (locatorHeight.toNat + 1) headers).map
                Header.hashHex
            headers :=
              headersOfBytes doubleSha256 (locatorHeight.toNat + 1) headers })) ∧
      ∀ payload : Span UInt8,
        (parseHeadersPayloadLogged doubleSha256 payload locatorHeight result).outcome =
            parseHeadersPayload doubleSha256 payload locatorHeight result ∧
          ParseInside payload
            (parseHeadersPayloadLogged doubleSha256 payload locatorHeight result) :=
  ⟨fun _ _ _ nonempty sized isBytes =>
      parseHeadersPayload_written doubleSha256 locatorHeight nonempty sized isBytes
        noHashes noHeaders,
    fun payload =>
      ⟨parseHeadersPayloadLogged_outcome doubleSha256 payload locatorHeight result,
        parseHeadersPayloadLogged_inside doubleSha256 payload locatorHeight noHashes
          noHeaders⟩⟩

/-- Two headers and a byte that belongs to neither. -/
def twoHeaders : Span UInt8 where
  items := headersBytes [List.replicate 80 1, List.replicate 80 2] [3]
  length_lt := by decide +kernel

/-- Behind the last height comes the first. -/
theorem headersPayload_parsed_two :
    ((parseHeadersPayload (fun _ => Hash.zero) twoHeaders 0xFFFFFFFE {}).2.headers.map
        fun header => (header.height, header.version)) =
      [(0xFFFFFFFF, 0x01010101), (0, 0x02020202)] := by
  have parsed := (headersPayload_parsed (fun _ => Hash.zero) 0xFFFFFFFE
    (by rfl : ({} : SignetHeadersResult).headerHashes = []) rfl).1 twoHeaders
    [List.replicate 80 1, List.replicate 80 2] [3] (by decide) (by decide +kernel) rfl
  rw [parsed]
  decide +kernel

end Bitcoin

end Blocxxi
