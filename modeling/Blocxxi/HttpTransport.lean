import Blocxxi.Base64Encoding
import Blocxxi.ChunkedStream
import Blocxxi.CoreRpcAdapter
import Blocxxi.NodeUrls

/-!
# Calls over HTTP

A call opens a connection of its own, sends one request and reads until the node closes
the connection.  The answer is what stands behind the first empty line; the length that
the node gives for it is not looked at.
-/

namespace Blocxxi

namespace Bitcoin

open Blocxxi.Core Cxx ByteText Kademlia

structure RpcConnectionConfig where
  host : ByteString := ascii "127.0.0.1"
  port : UInt16 := 8332
  username : ByteString := []
  password : ByteString := []
  path : ByteString := ascii "/"

def buildRequest (method params : ByteString) : ByteString :=
  ascii "\x7b\"jsonrpc\":\"1.0\",\"id\":\"blocxxi\",\"method\":\"" ++ method ++
    ascii "\",\"params\":" ++ params ++ ascii "\x7d"

/-- The line end of HTTP. -/
def crlf : ByteString := [13, 10]

def requestText (config : RpcConnectionConfig) (method params : ByteString) : ByteString :=
  let body := buildRequest method params
  ascii "POST " ++ config.path ++ ascii " HTTP/1.1" ++ crlf ++
    (ascii "Host: " ++ config.host ++ ascii ":" ++ decimal config.port.toNat ++ crlf) ++
    (ascii "Authorization: Basic " ++
      base64Encode (config.username ++ ascii ":" ++ config.password) ++ crlf) ++
    (ascii "Content-Type: application/json" ++ crlf) ++
    (ascii "Connection: close" ++ crlf) ++
    (ascii "Content-Length: " ++ decimal body.length ++ crlf ++ crlf) ++ body

/-- What comes of connecting, sending and reading.  A failure has the text of its error
code; what can be read comes in chunks, and ends with the stream or with a failure. -/
inductive HttpConnection
  | unresolved (message : String)
  | unconnected (message : String)
  | unsent (message : String)
  | read (chunks : List ByteString) (failure : Option String)

/-- The loop over `read_some` with a buffer of this size. -/
def readLoop (size : Nat) : Nat → List ByteString → ByteString → ByteString
  | 0, _, response => response
  | passes + 1, chunks, response =>
      match ChunkedStream.readSome size chunks with
      | none => response
      | some (bytes, rest) => readLoop size passes rest (response ++ bytes)

/-- Everything up to the end of the stream. -/
def receive (chunks : List ByteString) : ByteString :=
  readLoop 4096 (chunks.length + chunks.flatten.length) chunks []

/-- What the call makes of all that was read. -/
def readResponse (response : ByteString) : Status × ByteString :=
  match findText (crlf ++ crlf) response with
  | none => (.failure .rejected "rpc response missing http body", [])
  | some separator =>
      if ¬ (ascii "HTTP/1.1 200").isPrefixOf response ∧
          ¬ (ascii "HTTP/1.0 200").isPrefixOf response then
        (.failure .rejected "rpc transport returned non-200 response", [])
      else (.success "", response.drop (separator + 4))

def settleConnection : HttpConnection → Status × ByteString
  | .unresolved message => (.failure .ioError message, [])
  | .unconnected message => (.failure .ioError message, [])
  | .unsent message => (.failure .ioError message, [])
  | .read _ (some message) => (.failure .ioError message, [])
  | .read chunks none => readResponse (receive chunks)

/-- `HttpRpcTransport::Call`, where the world says what comes of a connection to a host
and a port over which a request is sent. -/
def httpTransport {World : Type} (config : RpcConnectionConfig)
    (connect : ByteString → UInt16 → ByteString → World → HttpConnection × World) :
    RpcTransport World := fun method params world =>
  if config.host = [] ∨ config.username = [] ∨ config.password = [] then
    ((.failure .invalidArgument "rpc transport requires host, username, and password", []),
      world)
  else
    let (connection, world) :=
      connect config.host config.port (requestText config method params) world
    (settleConnection connection, world)

theorem readLoop_enough {size passes : Nat} (positive : size ≠ 0) {chunks : List ByteString}
    (enough : chunks.length + chunks.flatten.length ≤ passes) (response : ByteString) :
    readLoop size passes chunks response = response ++ chunks.flatten := by
  induction passes generalizing chunks response with
  | zero =>
      have empty : chunks = [] := List.eq_nil_of_length_eq_zero (by omega)
      simp [empty, readLoop]
  | succ passes ih =>
      cases chunks with
      | nil => simp [readLoop, ChunkedStream.readSome]
      | cons chunk rest =>
          rw [List.length_cons, List.flatten_cons, List.length_append] at enough
          by_cases fits : chunk.length ≤ size
          · rw [readLoop, ChunkedStream.readSome, if_pos fits]
            dsimp only
            rw [ih (by omega), List.flatten_cons, List.append_assoc]
          · have shorter : (chunk.drop size :: rest).length +
                (chunk.drop size :: rest).flatten.length ≤ passes := by
              simp only [List.length_cons, List.flatten_cons, List.length_append,
                List.length_drop]
              omega
            rw [readLoop, ChunkedStream.readSome, if_neg fits]
            dsimp only
            rw [ih shorter, List.flatten_cons, List.flatten_cons, List.append_assoc,
              ← List.append_assoc (chunk.take size), List.take_append_drop]

/-- However the stream is cut into chunks, all of it is received. -/
theorem receive_eq (chunks : List ByteString) : receive chunks = chunks.flatten :=
  readLoop_enough (by decide) (Nat.le_refl _) []

/-- An answer of a node: its lines in front of the empty line, and what follows. -/
structure HttpResponse where
  head : List ByteString
  body : ByteString

namespace HttpResponse

def headText (response : HttpResponse) : ByteString :=
  response.head.flatMap fun line => line ++ crlf

def text (response : HttpResponse) : ByteString :=
  response.headText ++ (crlf ++ response.body)

/-- There is a status line, and no line is empty or has a carriage return. -/
structure WellFormed (response : HttpResponse) : Prop where
  status : response.head ≠ []
  lines : ∀ line ∈ response.head, line ≠ [] ∧ 13 ∉ line

/-- The status line tells success. -/
def isSuccess (response : HttpResponse) : Bool :=
  response.head.head?.any fun line =>
    (ascii "HTTP/1.1 200").isPrefixOf line || (ascii "HTTP/1.0 200").isPrefixOf line

end HttpResponse

theorem findText_short {pattern text : ByteString} (short : text.length < pattern.length) :
    findText pattern text = none := by
  cases found : findText pattern text with
  | none => rfl
  | some index =>
      obtain ⟨front, rest, rfl, -⟩ := findText_some found
      simp only [List.length_append] at short
      omega

/-- What is found is found in every front part that reaches so far, and in no other. -/
theorem findText_take {pattern text : ByteString} (nonempty : pattern ≠ []) {index : Nat}
    (found : findText pattern text = some index) (size : Nat) :
    findText pattern (text.take size) =
      if index + pattern.length ≤ size then some index else none := by
  induction text generalizing index size with
  | nil =>
      rw [findText, if_neg nonempty] at found
      cases found
  | cons byte rest ih =>
      rw [findText] at found
      cases size with
      | zero =>
          have positive : ¬ index + pattern.length ≤ 0 := by
            have := List.length_pos_iff.mpr nonempty
            omega
          rw [List.take_zero, findText, if_neg nonempty, if_neg positive]
      | succ size =>
          by_cases here : pattern.isPrefixOf (byte :: rest) = true
          · rw [if_pos here] at found
            cases found
            have isPrefix := List.isPrefixOf_iff_prefix.mp here
            by_cases reaches : 0 + pattern.length ≤ size + 1
            · have kept : pattern.isPrefixOf (byte :: rest.take size) = true := by
                rw [List.isPrefixOf_iff_prefix, ← List.take_succ_cons]
                exact List.prefix_take_iff.mpr ⟨isPrefix, by omega⟩
              rw [if_pos reaches, List.take_succ_cons, findText, if_pos kept]
            · rw [if_neg reaches]
              apply findText_short
              rw [List.length_take]
              omega
          · rw [if_neg here] at found
            obtain ⟨before, isBefore, rfl⟩ := Option.map_eq_some_iff.mp found
            have stillNot : ¬ pattern.isPrefixOf (byte :: rest.take size) = true := by
              intro isPrefix
              rw [List.isPrefixOf_iff_prefix] at here isPrefix
              apply here
              rw [← List.take_succ_cons] at isPrefix
              exact isPrefix.trans (List.take_prefix _ _)
            rw [List.take_succ_cons, findText, if_neg stillNot, ih isBefore size]
            by_cases reaches : before + pattern.length ≤ size
            · rw [if_pos reaches, if_pos (by omega), Option.map_some]
            · rw [if_neg reaches, if_neg (by omega), Option.map_none]

/-- An empty line does not begin in a text without carriage returns. -/
theorem findText_skip {line : ByteString} (plain : 13 ∉ line) (rest : ByteString) :
    findText (crlf ++ crlf) (line ++ rest) =
      (findText (crlf ++ crlf) rest).map (· + line.length) := by
  induction line with
  | nil => simp
  | cons byte line ih =>
      obtain ⟨differs, plain⟩ := not_or.mp (mt List.mem_cons.mpr plain)
      have notHere : ¬ (crlf ++ crlf).isPrefixOf (byte :: (line ++ rest)) = true := by
        rw [List.isPrefixOf_iff_prefix]
        intro isPrefix
        exact differs (List.cons_prefix_cons.mp isPrefix).1
      rw [List.cons_append, findText, if_neg notHere, ih plain, Option.map_map]
      rfl

namespace HttpResponse

theorem findText_headText {head : List ByteString} (nonempty : head ≠ [])
    (lines : ∀ line ∈ head, line ≠ [] ∧ 13 ∉ line) (body : ByteString) :
    findText (crlf ++ crlf) ((head.flatMap fun line => line ++ crlf) ++ (crlf ++ body)) =
      some ((head.flatMap fun line => line ++ crlf).length - 2) := by
  induction head with
  | nil => exact absurd rfl nonempty
  | cons line rest ih =>
      obtain ⟨⟨-, plain⟩, later⟩ := List.forall_mem_cons.mp lines
      rw [List.flatMap_cons, List.append_assoc, List.append_assoc, findText_skip plain]
      cases rest with
      | nil =>
          have here : findText (crlf ++ crlf) (crlf ++ (crlf ++ body)) = some 0 := rfl
          rw [List.flatMap_nil, List.nil_append, here]
          simp [crlf]
      | cons next rest =>
          obtain ⟨⟨isLine, nextPlain⟩, -⟩ := List.forall_mem_cons.mp later
          obtain ⟨byte, bytes, rfl⟩ := List.exists_cons_of_ne_nil isLine
          have differs : (13 : UInt8) ≠ byte := (not_or.mp (mt List.mem_cons.mpr nextPlain)).1
          have skips (behind : ByteString) :
              findText (crlf ++ crlf) (crlf ++ byte :: behind) =
                (findText (crlf ++ crlf) (byte :: behind)).map (· + 2) := by
            have notFirst :
                ¬ (crlf ++ crlf).isPrefixOf (13 :: 10 :: byte :: behind) = true := by
              simp [crlf, differs]
            have notSecond : ¬ (crlf ++ crlf).isPrefixOf (10 :: byte :: behind) = true := by
              simp [crlf]
            change findText (crlf ++ crlf) (13 :: 10 :: byte :: behind) = _
            rw [findText, if_neg notFirst, findText, if_neg notSecond, Option.map_map]
            rfl
          have found := ih (List.cons_ne_nil _ _) later
          rw [List.flatMap_cons, List.append_assoc, List.append_assoc,
            List.cons_append] at found ⊢
          rw [skips, found]
          simp only [Option.map_some, List.length_append, List.length_cons, crlf,
            List.length_nil]
          congr 1
          omega

theorem findText_text {response : HttpResponse} (wellFormed : response.WellFormed) :
    findText (crlf ++ crlf) response.text = some (response.headText.length - 2) :=
  findText_headText wellFormed.status wellFormed.lines response.body

theorem two_le_headText {response : HttpResponse} (wellFormed : response.WellFormed) :
    2 ≤ response.headText.length := by
  obtain ⟨line, rest, isHead⟩ := List.exists_cons_of_ne_nil wellFormed.status
  rw [headText, isHead, List.flatMap_cons]
  simp [crlf]
  omega

/-- A text without carriage returns begins the answer exactly if it begins its first
line. -/
theorem isPrefixOf_take {response : HttpResponse} (wellFormed : response.WellFormed)
    {front : ByteString} (plain : 13 ∉ front) {size : Nat}
    (reaches : response.headText.length ≤ size) :
    front.isPrefixOf (response.text.take size) =
      response.head.head?.any fun line => front.isPrefixOf line := by
  obtain ⟨line, rest, isHead⟩ := List.exists_cons_of_ne_nil wellFormed.status
  rw [headText, isHead, List.flatMap_cons, List.length_append, List.length_append] at reaches
  have isText : response.text.take size = line ++ (13 :: 10 ::
      ((rest.flatMap fun line => line ++ crlf) ++ (crlf ++ response.body))).take
        (size - line.length) := by
    rw [text, headText, isHead, List.flatMap_cons, List.append_assoc, List.append_assoc,
      List.take_append, List.take_of_length_le (by omega)]
    rfl
  obtain ⟨more, isMore⟩ : ∃ more, size - line.length = more + 1 :=
    ⟨size - line.length - 1, by simp [crlf] at reaches; omega⟩
  rw [isText, isMore, List.take_succ_cons, isHead, List.head?_cons, Option.any_some,
    Bool.eq_iff_iff, List.isPrefixOf_iff_prefix, List.isPrefixOf_iff_prefix]
  constructor
  · intro isPrefix
    rcases List.prefix_or_prefix_of_prefix isPrefix (List.prefix_append _ _) with
      inside | ⟨behind, rfl⟩
    · exact inside
    · -- What goes on behind the line begins with a carriage return.
      have isBehind := List.prefix_append_right_inj line |>.mp isPrefix
      cases behind with
      | nil => simp
      | cons byte behind =>
          obtain ⟨rfl, -⟩ := List.cons_prefix_cons.mp isBehind
          exact absurd (List.mem_append_right _ List.mem_cons_self) plain
  · exact fun isPrefix => isPrefix.trans (List.prefix_append _ _)

/-- A connection that is closed after any number of bytes of an answer, however they are
cut into chunks.  Without the empty line there is no answer; with it what there is of the
body is the answer, and that some of it is missing is not noticed. -/
theorem settleConnection_truncated {response : HttpResponse}
    (wellFormed : response.WellFormed) {size : Nat} {chunks : List ByteString}
    (isText : chunks.flatten = response.text.take size) :
    settleConnection (.read chunks none) =
      if size < response.headText.length + 2 then
        (.failure .rejected "rpc response missing http body", [])
      else if response.isSuccess then
        (.success "", response.body.take (size - (response.headText.length + 2)))
      else (.failure .rejected "rpc transport returned non-200 response", []) := by
  have two := two_le_headText wellFormed
  have found := findText_take (by decide) (findText_text wellFormed) size
  have four : (crlf ++ crlf).length = 4 := rfl
  rw [settleConnection, receive_eq, isText, readResponse, found]
  by_cases short : size < response.headText.length + 2
  · rw [if_pos short, if_neg (by omega)]
  · have begins {front : ByteString} (plain : 13 ∉ front) :
        front.isPrefixOf (response.text.take size) =
          response.head.head?.any fun line => front.isPrefixOf line :=
      isPrefixOf_take wellFormed plain (by omega)
    have isHead : response.isSuccess =
        ((ascii "HTTP/1.1 200").isPrefixOf (response.text.take size) ||
          (ascii "HTTP/1.0 200").isPrefixOf (response.text.take size)) := by
      rw [begins (by decide), begins (by decide), isSuccess]
      cases response.head.head? <;> rfl
    have refused : (¬ (ascii "HTTP/1.1 200").isPrefixOf (response.text.take size) = true ∧
        ¬ (ascii "HTTP/1.0 200").isPrefixOf (response.text.take size) = true) ↔
          ¬ response.isSuccess = true := by
      rw [isHead, Bool.or_eq_true, not_or]
    have isBody : response.text.drop (response.headText.length - 2 + 4) = response.body := by
      have behind : response.headText.length - 2 + 4 = (response.headText ++ crlf).length := by
        rw [List.length_append]
        change _ = response.headText.length + 2
        omega
      rw [text, ← List.append_assoc, behind, List.drop_left]
    rw [if_neg short, if_pos (by omega)]
    dsimp only
    rw [ite_cond_congr (propext refused), ite_not, List.drop_take, isBody]
    congr 3
    omega

end HttpResponse

/-- Without a host or credentials nothing is connected to.  A connection that is closed
after any number of bytes of an answer gives the answer as far as it goes, once its head is
there. -/
theorem httpTransport_settles {World : Type} (config : RpcConnectionConfig)
    (connect : ByteString → UInt16 → ByteString → World → HttpConnection × World)
    (method params : ByteString) (world : World) :
    let called := httpTransport config connect method params world
    let connected :=
      connect config.host config.port (requestText config method params) world
    if config.host = [] ∨ config.username = [] ∨ config.password = [] then
      called.1.1.isOk = false ∧ called.2 = world
    else
      called.2 = connected.2 ∧
      ∀ (response : HttpResponse) (size : Nat) (chunks : List ByteString),
        response.WellFormed → connected.1 = .read chunks none →
        chunks.flatten = response.text.take size →
        called.1 =
          if size < response.headText.length + 2 then
            (.failure .rejected "rpc response missing http body", [])
          else if response.isSuccess then
            (.success "", response.body.take (size - (response.headText.length + 2)))
          else (.failure .rejected "rpc transport returned non-200 response", []) := by
  intro called connected
  split
  · rename_i missing
    have isCalled : called = ((.failure .invalidArgument
        "rpc transport requires host, username, and password", []), world) :=
      if_pos missing
    rw [isCalled]
    exact ⟨rfl, rfl⟩
  · rename_i complete
    have isCalled : called = (settleConnection connected.1, connected.2) :=
      if_neg complete
    rw [isCalled]
    refine ⟨rfl, fun response size chunks wellFormed isRead isText => ?_⟩
    rw [isRead]
    exact HttpResponse.settleConnection_truncated wellFormed isText

end Bitcoin

end Blocxxi
