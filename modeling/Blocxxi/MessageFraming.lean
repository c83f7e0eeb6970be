import Blocxxi.BlockRoundTrip
import Blocxxi.ChunkedStream

/-!
# Messages on the wire

A message travels behind a header of 24 bytes: the magic of the network, the
command padded with zeros, the length of the payload and the first bytes of its
checksum.  It is read with reads that may be cut anywhere.
-/

namespace Blocxxi

namespace Bitcoin

open Cxx ByteText ChunkedStream

def kSignetMagic : ByteString := [0x0a, 0x03, 0xcf, 0x40]

section Framing

variable (doubleSha256 : ByteString → Hash256)

/-- The bytes of a message whose command fits its field. -/
def messageBytes (command payload : ByteString) : ByteString :=
  kSignetMagic ++ ((command ++ List.replicate (12 - command.length) 0) ++
    (littleEndianBytes (UInt64.ofNat payload.length) 4 ++
      ((doubleSha256 payload).bytes.take 4 ++ payload)))

/-- A longer command is copied over the end of its field. -/
def encodeMessage (command payload : ByteString) : Except Fault ByteString :=
  if 12 < command.length then .error .outOfBounds
  else .ok (messageBytes doubleSha256 command payload)

/-- The command in a header, up to its first zero byte. -/
def commandOf (header : ByteString) : ByteString :=
  ((header.drop 4).take 12).takeWhile (· ≠ 0)

def payloadSizeOf (header : ByteString) : Nat :=
  littleEndian ((header.drop 16).take 4)

/-- Read one message; on failure the rest of the stream is never read. -/
def readMessage (chunks : List ByteString) :
    Option DecodedMessage × List ByteString :=
  match readExact 24 chunks with
  | (none, rest) => (none, rest)
  | (some header, rest) =>
      if header.take 4 ≠ kSignetMagic then (none, rest)
      else
        match readExact (payloadSizeOf header) rest with
        | (none, rest) => (none, rest)
        | (some payload, rest) =>
            if (doubleSha256 payload).bytes.take 4 ≠ (header.drop 20).take 4 then
              (none, rest)
            -- no vector is as long as that
            else if fits : payload.length < 2 ^ 63 then
              (some ⟨commandOf header, ⟨payload, fits⟩⟩, rest)
            else (none, rest)

/-- Read a number of messages, up to the first failure. -/
def readMessages : Nat → List ByteString → List DecodedMessage × List ByteString
  | 0, chunks => ([], chunks)
  | count + 1, chunks =>
      match readMessage doubleSha256 chunks with
      | (none, rest) => ([], rest)
      | (some message, rest) =>
          let (messages, rest) := readMessages count rest
          (message :: messages, rest)

/-- The header of a message: four fields of fixed widths. -/
def headerBytes (magic command size checksum : ByteString) : ByteString :=
  magic ++ (command ++ (size ++ checksum))

section Fields

variable {magic command size checksum : ByteString}

theorem headerBytes_length (magicWidth : magic.length = 4)
    (commandWidth : command.length = 12) (sizeWidth : size.length = 4)
    (checksumWidth : checksum.length = 4) :
    (headerBytes magic command size checksum).length = 24 := by
  simp [headerBytes, magicWidth, commandWidth, sizeWidth, checksumWidth]

/-- Every field is found at its offset. -/
theorem headerBytes_fields (magicWidth : magic.length = 4)
    (commandWidth : command.length = 12) (sizeWidth : size.length = 4)
    (checksumWidth : checksum.length = 4) :
    (headerBytes magic command size checksum).take 4 = magic ∧
      ((headerBytes magic command size checksum).drop 4).take 12 = command ∧
      ((headerBytes magic command size checksum).drop 16).take 4 = size ∧
      ((headerBytes magic command size checksum).drop 20).take 4 = checksum := by
  have behindMagic : (headerBytes magic command size checksum).drop 4 =
      command ++ (size ++ checksum) := by
    rw [headerBytes, ← magicWidth, List.drop_left]
  have behindCommand : (headerBytes magic command size checksum).drop 16 =
      size ++ checksum := by
    rw [show 16 = 4 + 12 from rfl, ← List.drop_drop, behindMagic, ← commandWidth,
      List.drop_left]
  have behindSize : (headerBytes magic command size checksum).drop 20 = checksum := by
    rw [show 20 = 16 + 4 from rfl, ← List.drop_drop, behindCommand, ← sizeWidth,
      List.drop_left]
  refine ⟨?_, ?_, ?_, ?_⟩
  · rw [headerBytes, ← magicWidth, List.take_left]
  · rw [behindMagic, ← commandWidth, List.take_left]
  · rw [behindCommand, ← sizeWidth, List.take_left]
  · rw [behindSize, ← checksumWidth, List.take_length]

/-- A header of 24 bytes consists of its fields. -/
theorem headerBytes_of_length {header : ByteString} (length : header.length = 24) :
    headerBytes (header.take 4) ((header.drop 4).take 12) ((header.drop 16).take 4)
      ((header.drop 20).take 4) = header := by
  have checksum : (header.drop 20).take 4 = header.drop 20 :=
    List.take_of_length_le (by rw [List.length_drop, length])
  have size : (header.drop 16).take 4 ++ header.drop 20 = header.drop 16 := by
    rw [show 20 = 16 + 4 from rfl, ← List.drop_drop, List.take_append_drop]
  have command : (header.drop 4).take 12 ++ header.drop 16 = header.drop 4 := by
    rw [show 16 = 4 + 12 from rfl, ← List.drop_drop, List.take_append_drop]
  rw [headerBytes, checksum, size, command, List.take_append_drop]

end Fields

theorem sizeField_length {header : ByteString} (length : header.length = 24) :
    ((header.drop 16).take 4).length = 4 := by
  rw [List.length_take, List.length_drop, length]
  rfl

theorem payloadSizeOf_lt {header : ByteString} (length : header.length = 24) :
    payloadSizeOf header < 2 ^ 32 := by
  have bounded := littleEndian_lt ((header.drop 16).take 4)
  rwa [sizeField_length length] at bounded

/-- The size field holds the size it is read as. -/
theorem sizeField_payloadSizeOf {header : ByteString} (length : header.length = 24) :
    littleEndianBytes (UInt64.ofNat (payloadSizeOf header)) 4 =
      (header.drop 16).take 4 := by
  have width := sizeField_length length
  have short : ((header.drop 16).take 4).length ≤ 7 := by omega
  have bytes := littleEndianBytes_littleEndian short
  rwa [width] at bytes

theorem checksum_length (payload : ByteString) :
    ((doubleSha256 payload).bytes.take 4).length = 4 := by
  rw [List.length_take, (doubleSha256 payload).size_eq]
  rfl

/-- A padded command is cut at its padding. -/
theorem takeWhile_padded {command : ByteString} (noZero : 0 ∉ command) (count : Nat) :
    (command ++ List.replicate count 0).takeWhile (· ≠ 0) = command := by
  have allNonzero : ∀ byte ∈ command, decide (byte ≠ 0) = true := by
    intro byte member
    exact decide_eq_true fun zero => noZero (zero ▸ member)
  rw [List.takeWhile_append_of_pos allNonzero]
  cases count <;> simp [List.replicate_succ]

/-- What can be framed: the command fits its field and has no zero byte, and the
length of the payload fits in four bytes. -/
structure Framed (message : DecodedMessage) : Prop where
  fits : message.command.length ≤ 12
  noZero : 0 ∉ message.command
  small : message.payload.size < 2 ^ 32

theorem encodeMessage_framed {message : DecodedMessage} (framed : Framed message) :
    encodeMessage doubleSha256 message.command message.payload.items =
      .ok (messageBytes doubleSha256 message.command message.payload.items) :=
  if_neg (Nat.not_lt.mpr framed.fits)

/-- A stream that begins with a message gives it, and goes on behind it. -/
theorem readMessage_messageBytes {message : DecodedMessage} (framed : Framed message)
    {chunks : List ByteString} {stream : ByteString}
    (begins : chunks.flatten =
      messageBytes doubleSha256 message.command message.payload.items ++ stream) :
    ∃ rest, readMessage doubleSha256 chunks = (some message, rest) ∧
      rest.flatten = stream := by
  obtain ⟨command, payload, length⟩ := message
  have magicWidth : kSignetMagic.length = 4 := rfl
  have commandWidth :
      (command ++ List.replicate (12 - command.length) 0).length = 12 := by
    have fits : command.length ≤ 12 := framed.fits
    rw [List.length_append, List.length_replicate]
    omega
  have sizeWidth := littleEndianBytes_length (UInt64.ofNat payload.length) 4
  have checksumWidth := checksum_length doubleSha256 payload
  obtain ⟨isMagic, isCommand, isSize, isChecksum⟩ :=
    headerBytes_fields magicWidth commandWidth sizeWidth checksumWidth
  have headerLength :=
    headerBytes_length magicWidth commandWidth sizeWidth checksumWidth
  have beginsHeader : chunks.flatten = headerBytes kSignetMagic
      (command ++ List.replicate (12 - command.length) 0)
      (littleEndianBytes (UInt64.ofNat payload.length) 4)
      ((doubleSha256 payload).bytes.take 4) ++ (payload ++ stream) := by
    rw [begins]
    simp only [messageBytes, headerBytes, List.append_assoc]
  obtain ⟨behindHeader, readHeader, restHeader⟩ := readExact_append beginsHeader
  obtain ⟨rest, readPayload, isStream⟩ := readExact_append restHeader
  have size : littleEndian (littleEndianBytes (UInt64.ofNat payload.length) 4) =
      payload.length := by
    have small : payload.length < 2 ^ 32 := framed.small
    rw [littleEndian_littleEndianBytes _ (by decide), UInt64.toNat_ofNat']
    omega
  refine ⟨rest, ?_, isStream⟩
  rw [headerLength] at readHeader
  rw [readMessage, readHeader]
  simp only [payloadSizeOf, commandOf, isMagic, isCommand, isSize, isChecksum, size,
    readPayload, takeWhile_padded framed.noZero]
  rw [if_neg (not_not_intro rfl), if_neg (not_not_intro rfl), dif_pos length]

/-- The bytes of several messages, one after the other. -/
def streamBytes (messages : List DecodedMessage) : ByteString :=
  messages.flatMap fun message =>
    messageBytes doubleSha256 message.command message.payload.items

theorem readMessages_streamBytes {messages : List DecodedMessage}
    (framed : ∀ message ∈ messages, Framed message) {chunks : List ByteString}
    {stream : ByteString}
    (begins : chunks.flatten = streamBytes doubleSha256 messages ++ stream) :
    ∃ rest, readMessages doubleSha256 messages.length chunks = (messages, rest) ∧
      rest.flatten = stream := by
  induction messages generalizing chunks with
  | nil => exact ⟨chunks, rfl, by simpa [streamBytes] using begins⟩
  | cons message messages ih =>
      rw [streamBytes, List.flatMap_cons, List.append_assoc] at begins
      obtain ⟨behind, isMessage, isBehind⟩ :=
        readMessage_messageBytes doubleSha256 (framed message (by simp)) begins
      obtain ⟨rest, isRest, isStream⟩ :=
        ih (fun other member => framed other (by simp [member])) isBehind
      refine ⟨rest, ?_, isStream⟩
      rw [List.length_cons, readMessages, isMessage]
      simp [isRest]

/-- The bytes that reading a message consumes. -/
theorem readMessage_consumes {chunks rest : List ByteString} {message : DecodedMessage}
    (read : readMessage doubleSha256 chunks = (some message, rest)) :
    message.payload.size < 2 ^ 32 ∧ ∃ field : ByteString, field.length = 12 ∧
      message.command = field.takeWhile (· ≠ 0) ∧
      chunks.flatten = kSignetMagic ++ (field ++
        (littleEndianBytes (UInt64.ofNat message.payload.size) 4 ++
          ((doubleSha256 message.payload.items).bytes.take 4 ++
            (message.payload.items ++ rest.flatten)))) := by
  unfold readMessage at read
  split at read
  · cases read
  rename_i header behindHeader readHeader
  split at read
  · cases read
  rename_i isMagic
  split at read
  · cases read
  rename_i payload behindPayload readPayload
  split at read
  · cases read
  rename_i isChecksum
  split at read
  · rename_i fits
    simp only [Prod.mk.injEq, Option.some.injEq] at read
    obtain ⟨rfl, rfl⟩ := read
    obtain ⟨headerLength, splitHeader⟩ := readExact_split readHeader
    obtain ⟨payloadLength, splitPayload⟩ := readExact_split readPayload
    rw [ne_eq, not_not] at isMagic isChecksum
    have isSize : littleEndianBytes (UInt64.ofNat payload.length) 4 =
        (header.drop 16).take 4 := by
      rw [payloadLength, sizeField_payloadSizeOf headerLength]
    refine ⟨?_, (header.drop 4).take 12, ?_, rfl, ?_⟩
    · change payload.length < 2 ^ 32
      rw [payloadLength]
      exact payloadSizeOf_lt headerLength
    · rw [List.length_take, List.length_drop, headerLength]
      rfl
    · have isHeader := headerBytes_of_length headerLength
      rw [headerBytes, isMagic, ← isChecksum, ← isSize] at isHeader
      change chunks.flatten = kSignetMagic ++ (_ ++
        (littleEndianBytes (UInt64.ofNat payload.length) 4 ++
          ((doubleSha256 payload).bytes.take 4 ++ (payload ++ _))))
      rw [splitHeader, splitPayload, ← isHeader]
      simp only [List.append_assoc]
      rw [isHeader]
  · cases read

theorem encodeMessages_framed {messages : List DecodedMessage}
    (framed : ∀ message ∈ messages, Framed message) :
    messages.mapM (fun message =>
        encodeMessage doubleSha256 message.command message.payload.items) =
      .ok (messages.map fun message =>
        messageBytes doubleSha256 message.command message.payload.items) := by
  induction messages with
  | nil => rfl
  | cons message messages ih =>
      rw [List.mapM_cons, encodeMessage_framed doubleSha256 (framed message (by simp)),
        ih fun other member => framed other (by simp [member])]
      rfl

/-- Messages that are encoded and sent one after the other are read back as they
were, however the stream is cut; and what a message is read from is its encoding,
up to what is in its command field behind the first zero byte. -/
theorem readMessage_encodeMessage :
    (∀ (command payload stream : ByteString) (chunks : List ByteString),
      command.length ≤ 12 → 0 ∉ command → payload.length < 2 ^ 32 →
        ∃ bytes, encodeMessage doubleSha256 command payload = .ok bytes ∧
          (chunks.flatten = bytes ++ stream →
            ∃ message rest, readMessage doubleSha256 chunks = (some message, rest) ∧
              message.command = command ∧ message.payload.items = payload ∧
              rest.flatten = stream)) ∧
    (∀ (messages : List DecodedMessage) (stream : ByteString)
        (chunks : List ByteString),
      (∀ message ∈ messages, Framed message) →
        ∃ bytes, messages.mapM (fun message =>
            encodeMessage doubleSha256 message.command message.payload.items) =
              .ok bytes ∧
          (chunks.flatten = bytes.flatten ++ stream →
            ∃ rest, readMessages doubleSha256 messages.length chunks =
                (messages, rest) ∧
              rest.flatten = stream)) ∧
    ∀ (chunks rest : List ByteString) (message : DecodedMessage),
      readMessage doubleSha256 chunks = (some message, rest) →
        message.payload.size < 2 ^ 32 ∧ ∃ field : ByteString, field.length = 12 ∧
          message.command = field.takeWhile (· ≠ 0) ∧
          chunks.flatten = kSignetMagic ++ (field ++
            (littleEndianBytes (UInt64.ofNat message.payload.size) 4 ++
              ((doubleSha256 message.payload.items).bytes.take 4 ++
                (message.payload.items ++ rest.flatten)))) := by
  refine ⟨?_, ?_, fun chunks rest message => readMessage_consumes doubleSha256⟩
  · intro command payload stream chunks fits noZero small
    let message : DecodedMessage := ⟨command, ⟨payload, by omega⟩⟩
    have framed : Framed message := ⟨fits, noZero, small⟩
    refine ⟨_, encodeMessage_framed doubleSha256 framed, fun begins => ?_⟩
    obtain ⟨rest, read, isStream⟩ := readMessage_messageBytes doubleSha256 framed begins
    exact ⟨message, rest, read, rfl, rfl, isStream⟩
  · intro messages stream chunks framed
    refine ⟨_, encodeMessages_framed doubleSha256 framed, fun begins => ?_⟩
    apply readMessages_streamBytes doubleSha256 framed
    rw [begins, streamBytes, List.flatMap_def]

end Framing

/-- A ping whose bytes arrive one by one, with a byte of the next message. -/
theorem readMessage_encodeMessage_ping :
    ∃ message rest, readMessage (fun _ => Hash.zero)
        (((messageBytes (fun _ => Hash.zero) (ascii "ping") [1, 2]) ++ [0x0a]).map
          fun byte => [byte]) = (some message, rest) ∧
      message.command = ascii "ping" ∧ message.payload.items = [1, 2] ∧
      rest.flatten = [0x0a] := by
  obtain ⟨bytes, encoded, reads⟩ := (readMessage_encodeMessage fun _ => Hash.zero).1
    (ascii "ping") [1, 2] [0x0a]
    (((messageBytes (fun _ => Hash.zero) (ascii "ping") [1, 2]) ++ [0x0a]).map
      fun byte => [byte]) (by decide) (by decide) (by decide)
  cases encoded
  exact reads (by decide)

end Bitcoin

end Blocxxi
