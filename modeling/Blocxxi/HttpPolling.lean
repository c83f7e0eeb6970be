import Blocxxi.HttpRequests
import Blocxxi.ObservationBatches

/-!
# Polling over HTTP

A node takes requests apart by the rules of HTTP and JSON, checks who calls, and answers.
A poll over connections to such a node is a poll of the node itself, whatever lines stand
in the heads of its answers and however its bytes arrive.
-/

namespace Blocxxi

namespace Bitcoin

open Blocxxi.Core Cxx ByteText Json JsonGrammar

/-- Who may call a node, what it answers to a method with its parameters, and how an
answer is sent: with which lines in its head, and in which chunks. -/
structure RpcServer (World : Type) where
  accounts : List (ByteString × ByteString)
  answer : ByteString → ByteString → World → ByteString × World
  headers : World → List ByteString
  cut : ByteString → World → List ByteString
  headers_plain : ∀ world, ∀ line ∈ headers world, line ≠ [] ∧ 13 ∉ line
  cut_flatten : ∀ bytes world, (cut bytes world).flatten = bytes

namespace RpcServer

variable {World : Type} (server : RpcServer World)

def respond (status : String) (body : ByteString) (world : World) : HttpConnection :=
  .read (server.cut (HttpResponse.text ⟨ascii status :: server.headers world, body⟩) world)
    none

/-- What comes of a connection over which a request is sent. -/
def connect (_host : ByteString) (_port : UInt16) (request : ByteString) (world : World) :
    HttpConnection × World :=
  match readRequest request with
  | none => (server.respond "HTTP/1.1 400 Bad Request" [] world, world)
  | some request =>
      match credentialsOf request with
      | none => (server.respond "HTTP/1.1 401 Unauthorized" [] world, world)
      | some account =>
          if account ∉ server.accounts then
            (server.respond "HTTP/1.1 401 Unauthorized" [] world, world)
          else
            match rpcCallOf request.body with
            | none => (server.respond "HTTP/1.1 400 Bad Request" [] world, world)
            | some (method, params) =>
                let (body, after) := server.answer method params world
                (server.respond "HTTP/1.1 200 OK" body world, after)

/-- Calling the node without a connection. -/
def transport : RpcTransport World := fun method params world =>
  let (body, after) := server.answer method params world
  ((.success "", body), after)

theorem settle_respond {status : String} (statusPlain : ascii status ≠ [] ∧ 13 ∉ ascii status)
    (body : ByteString) (world : World) :
    settleConnection (server.respond status body world) =
      if (ascii "HTTP/1.1 200").isPrefixOf (ascii status) ||
          (ascii "HTTP/1.0 200").isPrefixOf (ascii status) then
        (.success "", body)
      else (.failure .rejected "rpc transport returned non-200 response", []) := by
  let response : HttpResponse := ⟨ascii status :: server.headers world, body⟩
  have wellFormed : response.WellFormed :=
    ⟨List.cons_ne_nil _ _, List.forall_mem_cons.mpr ⟨statusPlain, server.headers_plain world⟩⟩
  have size : response.text.length = response.headText.length + 2 + body.length := by
    simp only [HttpResponse.text, List.length_append]
    change _ + (2 + body.length) = _
    omega
  have isText : (server.cut response.text world).flatten =
      response.text.take response.text.length := by
    rw [server.cut_flatten, List.take_length]
  have settled := HttpResponse.settleConnection_truncated wellFormed isText
  rw [if_neg (by omega), size, Nat.add_sub_cancel_left] at settled
  rw [respond, settled]
  change (if response.isSuccess = true then (_, body.take body.length) else _) = _
  rw [List.take_length]
  rfl

/-- The calls that a poll makes. -/
def polledMethods : List String :=
  ["getblockcount", "getbestblockhash", "getmempoolinfo", "getnetworkinfo",
    "getblockchaininfo", "getrawmempool", "getblockstats"]

variable {server} {rpc : RpcConnectionConfig} {params : ByteString} {method : String}

theorem httpTransport_connect (plain : rpc.Plain)
    (complete : ¬ (rpc.host = [] ∨ rpc.username = [] ∨ rpc.password = []))
    (isMethod : method ∈ polledMethods) (isValue : IsValue params) (world : World) :
    httpTransport rpc server.connect (ascii method) params world =
      if (rpc.username, rpc.password) ∈ server.accounts then
        server.transport (ascii method) params world
      else
        ((.failure .rejected "rpc transport returned non-200 response", []), world) := by
  have plainMethods : ∀ method ∈ polledMethods, isPlain method = true := by decide +kernel
  have called : rpcCallOf (buildRequest (ascii method) params) =
      some (ascii method, params) :=
    rpcCallOf_buildRequest (plainMethods _ isMethod) isValue
  have credentials : credentialsOf ⟨ascii "POST", rpc.path, ascii "HTTP/1.1",
        headerFields rpc (ascii method) params, buildRequest (ascii method) params⟩ =
      some (rpc.username, rpc.password) :=
    credentialsOf_headerFields plain rfl
  rw [httpTransport, if_neg complete, connect, readRequest_requestText plain]
  dsimp only
  rw [credentials]
  dsimp only
  by_cases known : (rpc.username, rpc.password) ∈ server.accounts
  · rw [if_neg (not_not.mpr known), if_pos known, called]
    dsimp only
    rw [server.settle_respond (by decide +kernel), if_pos (by decide +kernel)]
    rfl
  · rw [if_pos known, if_neg known]
    dsimp only
    rw [server.settle_respond (by decide +kernel), if_neg (by decide +kernel)]

end RpcServer

theorem isValue_empty : IsValue (ascii "[]") :=
  .array .empty [] fun _ member => nomatch member

theorem isValue_true : IsValue (ascii "[true]") :=
  .array .empty [⟨.empty, ascii "true", .empty⟩]
    (List.forall_mem_singleton.mpr (.scalar .trueName))

theorem isValue_blockStatsParams (blockCount : UInt64) :
    IsValue (blockStatsParams blockCount) := by
  let blank : Blank := ⟨[32], List.forall_mem_singleton.mpr rfl⟩
  let literal (text : String) (plain : isPlain text = true) := (plainLiteral text plain).text
  let names := arrayText .empty
    [⟨.empty, literal "txs" (by decide), .empty⟩,
      ⟨blank, literal "totalfee" (by decide), .empty⟩]
  have areNames : IsValue names :=
    .array .empty _ (List.forall_mem_cons.mpr
      ⟨.string _, List.forall_mem_singleton.mpr (.string _)⟩)
  have isArray := IsValue.array .empty
    [⟨.empty, decimal blockCount.toNat, .empty⟩, ⟨blank, names, .empty⟩]
    (List.forall_mem_cons.mpr
      ⟨isValue_decimal _, List.forall_mem_singleton.mpr areNames⟩)
  have isText : names = ascii "[\"txs\", \"totalfee\"]" := by decide +kernel
  have isParams : blockStatsParams blockCount = arrayText .empty
      [⟨.empty, decimal blockCount.toNat, .empty⟩, ⟨blank, names, .empty⟩] := by
    rw [isText]
    simp [blockStatsParams, arrayText, listed, separated, Element.text, Blank.empty, blank,
      ascii]
  rw [isParams]
  exact isArray

section Polls

variable {World Double : Type} (doubles : DoubleArithmetic Double)
  (config : BitcoinCoreRpcConfig)

/-- A poll depends on its calls only. -/
theorem observe_congr {first second : RpcTransport World}
    (same : ∀ method ∈ RpcServer.polledMethods, ∀ params, IsValue params →
      first (ascii method) params = second (ascii method) params)
    (batch : ObservationBatch Double) :
    observe doubles config first batch = observe doubles config second batch := by
  have calls (method : String) (isMethod : method ∈ RpcServer.polledMethods)
      {params : ByteString} (isValue : IsValue params) :
      call first (ascii method) params = call second (ascii method) params := by
    funext world
    rw [call, call, same method isMethod params isValue]
  have count := calls "getblockcount" (by decide) isValue_empty
  have hash := calls "getbestblockhash" (by decide) isValue_empty
  have mempool := calls "getmempoolinfo" (by decide) isValue_empty
  have network := calls "getnetworkinfo" (by decide) isValue_empty
  have chain := calls "getblockchaininfo" (by decide) isValue_empty
  have entries := calls "getrawmempool" (by decide) isValue_true
  have stats (blockCount : UInt64) :=
    calls "getblockstats" (by decide) (isValue_blockStatsParams blockCount)
  simp only [observe, ask, count, hash, mempool, network, chain, entries, stats]

theorem bind_error {First Second : Type} {polling : Polling World First}
    {world after : World} {status : Status} (ends : polling world = (.error status, after))
    (next : First → Polling World Second) :
    (polling >>= next) world = (.error status, after) := by
  change polling.andThen next world = _
  rw [Polling.andThen, ends]

/-- A poll ends with its first call if that fails. -/
theorem poll_refused {transport : RpcTransport World} {status : Status} {world after : World}
    {text : ByteString} (refused : status.isOk = false)
    (called : transport (ascii "getblockcount") (ascii "[]") world = ((status, text), after))
    (now : Int64) :
    poll doubles config transport now world = ((status, newBatch config now), after) := by
  have isCall : call transport (ascii "getblockcount") (ascii "[]") world =
      (.error status, after) := by
    rw [call, called]
    simp only [refused, Bool.not_false, if_true]
  have isObserved : observe doubles config transport (newBatch config now) world =
      (.error status, after) :=
    bind_error (bind_error isCall _) _
  simp only [poll, isObserved]

variable {server : RpcServer World} {rpc : RpcConnectionConfig}

end Polls

/-- A node that answers with the number of calls before, byte by byte. -/
def countingServer : RpcServer Nat where
  accounts := [(ascii "observer", ascii "secret")]
  answer _ _ calls := ((reply (decimal calls)).2, calls + 1)
  headers _ := [ascii "Content-Type: application/json"]
  cut bytes _ := bytes.map fun byte => [byte]
  headers_plain _ := List.forall_mem_singleton.mpr (by decide +kernel)
  cut_flatten bytes _ := by
    induction bytes with
    | nil => rfl
    | cons byte rest tail => rw [List.map_cons, List.flatten_cons, tail]; rfl

def observerLogin (password : String) : RpcConnectionConfig where
  username := ascii "observer"
  password := ascii password

theorem observerLogin_plain (password : String) : (observerLogin password).Plain where
  path := (by decide +kernel : 32 ∉ ascii "/" ∧ 13 ∉ ascii "/")
  host := (by decide +kernel : 13 ∉ ascii "127.0.0.1")
  username := (by decide +kernel : 58 ∉ ascii "observer")

end Bitcoin

end Blocxxi
