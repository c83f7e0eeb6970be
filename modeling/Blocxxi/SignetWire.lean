import Blocxxi.BlockMetadata

/-!
# Talking to a signet peer

Messages are read from and sent to a peer over a socket.  A socket is what
the peer sends before the connection ends and the outcomes of what is sent to
it; reading a message that is cut off or damaged ends the connection.  The
commands that were read are traced.
-/

namespace Blocxxi

namespace Bitcoin

open Cxx ByteText

/-- The low bytes of a number, least significant first. -/
def littleEndianBytes (value : UInt64) (width : Nat) : ByteString :=
  (List.range width).map fun index =>
    ((value >>> UInt64.ofNat (index * 8)) &&& 0xFF).toUInt8

def compactSizeBytes (value : UInt64) : ByteString :=
  if value < 253 then [value.toUInt8]
  else if value ≤ 0xFFFF then 0xFD :: littleEndianBytes value 2
  else if value ≤ 0xFFFFFFFF then 0xFE :: littleEndianBytes value 4
  else 0xFF :: littleEndianBytes value 8

def kProtocolVersion : UInt64 := 70016

/-- A network address: four or sixteen bytes, with the text it is shown as. -/
structure Address where
  bytes : ByteString := [0, 0, 0, 0]
  text : ByteString := ascii "0.0.0.0"
  deriving DecidableEq

def networkAddressBytes (address : Address) (port : UInt16) : ByteString :=
  littleEndianBytes 0 8 ++
    (if address.bytes.length = 4 then
      List.replicate 10 0 ++ [0xFF, 0xFF] ++ address.bytes
    else address.bytes) ++
    [(port >>> 8).toUInt8, port.toUInt8]

def encodeVersionPayload (remoteAddress : Address) (remotePort : UInt16)
    (now : UInt64) : ByteString :=
  let userAgent := ascii "/blocxxi:0.1.0/"
  littleEndianBytes kProtocolVersion 4 ++ littleEndianBytes 0 8 ++
    littleEndianBytes now 8 ++ networkAddressBytes remoteAddress remotePort ++
    networkAddressBytes {} 0 ++ littleEndianBytes 0x12345678ABCDEF00 8 ++
    compactSizeBytes (UInt64.ofNat userAgent.length) ++ userAgent ++
    littleEndianBytes 0 4 ++ [0]

/-- The requests of a `getdata` payload, unless some text is no hash. -/
def getDataItems : List ByteString → Option ByteString
  | [] => some []
  | hashHex :: rest => do
      let hash ← wireHashFromHex hashHex
      let items ← getDataItems rest
      some (littleEndianBytes 2 4 ++ hash ++ items)

def encodeGetDataPayload (blockHashes : List ByteString) : Option ByteString :=
  (getDataItems blockHashes).map
    (compactSizeBytes (UInt64.ofNat blockHashes.length) ++ ·)

structure DecodedMessage where
  command : ByteString
  payload : Span UInt8

/-- A connection: the messages that arrive before it ends, the outcomes of the
sends to come, and what was sent. -/
structure Socket where
  incoming : List DecodedMessage := []
  sends : List Bool := []
  sent : List (ByteString × ByteString) := []

/-- Send a message; it tells whether it was sent. -/
def sendMessage (command payload : ByteString) (socket : Socket) :
    Bool × Socket :=
  (socket.sends.headD false,
    { socket with
      sends := socket.sends.tail
      sent := socket.sent ++ [(command, payload)] })

/-- Read on until a message is no ping; every ping is answered. -/
def readNextNonPing : List DecodedMessage → Socket → List ByteString →
    Option DecodedMessage × Socket × List ByteString
  | [], socket, trace => (none, { socket with incoming := [] }, trace)
  | message :: rest, socket, trace =>
      let socket := { socket with incoming := rest }
      let trace := trace ++ [message.command]
      if message.command ≠ ascii "ping" then (some message, socket, trace)
      else
        let (answered, socket) :=
          sendMessage (ascii "pong") message.payload.items socket
        if answered then readNextNonPing rest socket trace
        else (none, socket, trace)

def readNextNonPingMessage (socket : Socket) (trace : List ByteString) :
    Option DecodedMessage × Socket × List ByteString :=
  readNextNonPing socket.incoming socket trace

/-- What the handshake has learned. -/
structure Handshake where
  sawVersion : Bool := false
  sawVerack : Bool := false
  protocolVersion : Int32 := 0
  trace : List ByteString := []

/-- The version in a payload that is large enough to hold one. -/
def protocolVersionOf (payload : Span UInt8) (current : Int32) : Int32 :=
  if 4 ≤ payload.size then
    (UInt32.ofNat (littleEndian (bytesAt payload 0 4))).toInt32
  else current

/-- The loop of the handshake over the messages that arrive. -/
def awaitHandshake : List DecodedMessage → Socket → Handshake →
    Bool × Socket × Handshake
  | [], socket, state =>
      (state.sawVersion && state.sawVerack, { socket with incoming := [] }, state)
  | message :: rest, socket, state =>
      if state.sawVersion && state.sawVerack then
        (true, { socket with incoming := message :: rest }, state)
      else
        let socket := { socket with incoming := rest }
        let state := { state with trace := state.trace ++ [message.command] }
        if message.command = ascii "version" then
          let (answered, socket) := sendMessage (ascii "verack") [] socket
          let state := { state with
            protocolVersion :=
              protocolVersionOf message.payload state.protocolVersion
            sawVersion := true }
          if answered then awaitHandshake rest socket state
          else (false, socket, state)
        else if message.command = ascii "ping" then
          let (answered, socket) :=
            sendMessage (ascii "pong") message.payload.items socket
          if answered then awaitHandshake rest socket state
          else (false, socket, state)
        else if message.command = ascii "verack" then
          awaitHandshake rest socket { state with sawVerack := true }
        else awaitHandshake rest socket state

def completeVersionHandshake (remoteAddress : Address) (port : UInt16)
    (now : UInt64) (socket : Socket) : Bool × Socket × Handshake :=
  let (sent, socket) := sendMessage (ascii "version")
    (encodeVersionPayload remoteAddress port now) socket
  if sent then awaitHandshake socket.incoming socket {}
  else (false, socket, {})

end Bitcoin

end Blocxxi
