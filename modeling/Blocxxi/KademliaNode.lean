import Blocxxi.HashWords

/-!
# Kademlia nodes

A node of the routing table has an id, an endpoint and, once it has been asked for
it, the URL made of both.  Its distance to another node is the exclusive or of the
ids.  The addresses and their texts are those of the network library.
-/

namespace Blocxxi

namespace Kademlia

open Cxx ByteText

/-- The addresses of the network library: `make_address`, which may throw, and
`to_string`. -/
structure AddressText (Address : Type) where
  makeAddress : ByteString → Except Fault Address
  toText : Address → ByteString

/-- `IpEndpoint`, with any kind of address. -/
structure Endpoint (Address : Type) where
  address : Address
  port : UInt16 := 0
  deriving DecidableEq

/-- The class `Node`; its URL is kept from the first call of `ToString` on. -/
structure NodeObject (Address : Type) where
  nodeId : Hash160
  endpoint : Endpoint Address
  url : Option ByteString := none
  failedRequestsCount : Int := 0
  lastSeenTime : Int := 0
  deriving DecidableEq

namespace NodeObject

variable {Address : Type}

/-- `Node()`. -/
def byDefault [Inhabited Address] : NodeObject Address where
  nodeId := Hash.zero
  endpoint := ⟨default, 0⟩

/-- `Node(node_id, ip_address, port_number)`. -/
def ofText (asio : AddressText Address) (nodeId : Hash160) (ipAddress : ByteString)
    (portNumber : UInt16) : Except Fault (NodeObject Address) := do
  let address ← asio.makeAddress ipAddress
  .ok { nodeId := nodeId, endpoint := ⟨address, portNumber⟩ }

/-- `Node(node_id, endpoint)`. -/
def ofEndpoint (nodeId : Hash160) (endpoint : Endpoint Address) : NodeObject Address where
  nodeId := nodeId
  endpoint := endpoint

/-- The URL of the id and the endpoint as they are. -/
def currentUrl (asio : AddressText Address) (node : NodeObject Address) : ByteString :=
  ascii "knode://" ++ (node.nodeId.toHex ++ (ascii "@" ++
    (asio.toText node.endpoint.address ++ (ascii ":" ++
      decimal node.endpoint.port.toNat))))

/-- `ToString`: the URL that is kept, which is made now if there is none. -/
def toString (asio : AddressText Address) (node : NodeObject Address) :
    ByteString × NodeObject Address :=
  match node.url with
  | some url => (url, node)
  | none => (node.currentUrl asio, { node with url := some (node.currentUrl asio) })

def distanceTo (node : NodeObject Address) (hash : Hash160) : Hash160 :=
  @Hash.xor 5 node.nodeId hash

def logDistanceTo (scan : Option Hash.BitScan) (node : NodeObject Address)
    (hash : Hash160) : Nat :=
  let dist := node.distanceTo hash
  let lzc := dist.leadingZeroBits scan
  sizeSub (sizeSub 160 1) lzc

end NodeObject

def lzcount : List Nat :=
  [8, 7, 6, 6, 5, 5, 5, 5, 4, 4, 4, 4, 4, 4, 4, 4, 3, 3, 3, 3, 3, 3, 3, 3,
    3, 3, 3, 3, 3, 3, 3, 3, 2, 2, 2, 2, 2, 2, 2, 2, 2, 2, 2, 2, 2, 2, 2, 2,
    2, 2, 2, 2, 2, 2, 2, 2, 2, 2, 2, 2, 2, 2, 2, 2, 1, 1, 1, 1, 1, 1, 1, 1,
    1, 1, 1, 1, 1, 1, 1, 1, 1, 1, 1, 1, 1, 1, 1, 1, 1, 1, 1, 1, 1, 1, 1, 1,
    1, 1, 1, 1, 1, 1, 1, 1, 1, 1, 1, 1, 1, 1, 1, 1, 1, 1, 1, 1, 1, 1, 1, 1,
    1, 1, 1, 1, 1, 1, 1, 1, 0, 0, 0, 0, 0, 0, 0, 0, 0, 0, 0, 0, 0, 0, 0, 0,
    0, 0, 0, 0, 0, 0, 0, 0, 0, 0, 0, 0, 0, 0, 0, 0, 0, 0, 0, 0, 0, 0, 0, 0,
    0, 0, 0, 0, 0, 0, 0, 0, 0, 0, 0, 0, 0, 0, 0, 0, 0, 0, 0, 0, 0, 0, 0, 0,
    0, 0, 0, 0, 0, 0, 0, 0, 0, 0, 0, 0, 0, 0, 0, 0, 0, 0, 0, 0, 0, 0, 0, 0,
    0, 0, 0, 0, 0, 0, 0, 0, 0, 0, 0, 0, 0, 0, 0, 0, 0, 0, 0, 0, 0, 0, 0, 0,
    0, 0, 0, 0, 0, 0, 0, 0, 0, 0, 0, 0, 0, 0, 0, 0]

/-- The loop over the bytes, up to the first in which the ids differ. -/
def sharedPrefixFrom : ByteString → ByteString → Nat → Nat
  | first :: firstRest, second :: secondRest, lz =>
      let x := first ^^^ second
      if x = 0 then sharedPrefixFrom firstRest secondRest (lz + 8)
      else lz + lzcount.getD x.toNat 0
  | _, _, lz => lz

def sharedPrefixSize {Address : Type} (a b : NodeObject Address) : Nat :=
  sharedPrefixFrom a.nodeId.bytes b.nodeId.bytes 0

end Kademlia

end Blocxxi
