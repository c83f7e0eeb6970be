import Blocxxi.DecimalText
import Blocxxi.HttpTransport
import Blocxxi.JsonExtraction

/-!
# What a node reads from a request

A request is read by the rules of HTTP: lines up to an empty one, a name in front of the
first colon of each, and as many bytes behind them as the length says.  Everything that
the call was given is found again.
-/

namespace Blocxxi

namespace Bitcoin

open Blocxxi.Core Cxx ByteText Json JsonGrammar

structure HttpRequest where
  method : ByteString
  target : ByteString
  version : ByteString
  headers : List (ByteString × ByteString)
  body : ByteString
  deriving DecidableEq

/-- The lines in front of the empty line, and what is behind it. -/
def readHead (line : ByteString) : ByteString → Option (List ByteString × ByteString)
  | 13 :: 10 :: rest =>
      if line = [] then some ([], rest)
      else (readHead [] rest).map fun (lines, body) => (line :: lines, body)
  | byte :: rest => readHead (line ++ [byte]) rest
  | [] => none

/-- A name, a colon, a blank and a value. -/
def readHeader (line : ByteString) : Option (ByteString × ByteString) :=
  match breakAt 58 line with
  | some (name, 32 :: value) => some (name, value)
  | _ => none

def readHeaders : List ByteString → Option (List (ByteString × ByteString))
  | [] => some []
  | line :: lines => do
      let header ← readHeader line
      let headers ← readHeaders lines
      return header :: headers

/-- A length is written with digits only. -/
def readLength (text : ByteString) : Option Nat :=
  if text ≠ [] ∧ text.all isDigit then some (digitsValue text) else none

def readRequest (text : ByteString) : Option HttpRequest :=
  match readHead [] text with
  | some (requestLine :: lines, rest) => do
      let (method, afterMethod) ← breakAt 32 requestLine
      let (target, version) ← breakAt 32 afterMethod
      let headers ← readHeaders lines
      let given ← headers.lookup (ascii "Content-Length")
      let length ← readLength given
      if rest.length < length then none
      else return { method, target, version, headers, body := rest.take length }
  | _ => none

/-- The name and the password of the basic scheme. -/
def credentialsOf (request : HttpRequest) : Option (ByteString × ByteString) := do
  let value ← request.headers.lookup (ascii "Authorization")
  if ¬ (ascii "Basic ").isPrefixOf value then none
  else
    let text ← Base64.decode (value.drop 6)
    breakAt 58 text

/-- The method and the parameters of a JSON-RPC request. -/
def rpcCallOf (body : ByteString) : Option (ByteString × ByteString) := do
  let value ← findObjectValue body (ascii "method")
  let method ← parseString value
  let params ← findObjectValue body (ascii "params")
  return (method, params)

/-- No text that stands in a line ends it, and the separators stand where they should. -/
structure RpcConnectionConfig.Plain (config : RpcConnectionConfig) : Prop where
  path : 32 ∉ config.path ∧ 13 ∉ config.path
  host : 13 ∉ config.host
  username : 58 ∉ config.username

theorem readHead_line {line : ByteString} (plain : 13 ∉ line) (front rest : ByteString) :
    readHead front (line ++ rest) = readHead (front ++ line) rest := by
  induction line generalizing front with
  | nil => simp
  | cons byte line ih =>
      obtain ⟨differs, plain⟩ := not_or.mp (mt List.mem_cons.mpr plain)
      rw [List.cons_append, readHead, ih plain, List.append_assoc]
      · rfl
      · rintro more rfl
        exact absurd rfl differs

theorem readHead_cons {line : ByteString} (nonempty : line ≠ []) (plain : 13 ∉ line)
    (rest : ByteString) :
    readHead [] (line ++ (crlf ++ rest)) =
      (readHead [] rest).map fun (lines, body) => (line :: lines, body) := by
  rw [readHead_line plain, List.nil_append]
  exact if_neg nonempty

theorem readHead_lines {lines : List ByteString}
    (plain : ∀ line ∈ lines, line ≠ [] ∧ 13 ∉ line) (body : ByteString) :
    readHead [] ((lines.flatMap fun line => line ++ crlf) ++ (crlf ++ body)) =
      some (lines, body) := by
  induction lines with
  | nil => rfl
  | cons line lines ih =>
      obtain ⟨⟨nonempty, lineplain⟩, later⟩ := List.forall_mem_cons.mp plain
      rw [List.flatMap_cons, List.append_assoc, List.append_assoc,
        readHead_cons nonempty lineplain, ih later]
      rfl

theorem carriageReturn_notMem_encode (bytes : ByteString) : 13 ∉ Base64.encode bytes := by
  have table : ∀ value : Fin 64, (13 : UInt8) ≠ Base64.digit value := by decide +kernel
  have plain (number : Nat) : 13 ∉ Base64.digits number := by
    have small (number : Nat) : number % 64 < 64 := Nat.mod_lt _ (by decide)
    simp only [Base64.digits, List.mem_cons, List.not_mem_nil, or_false, not_or]
    exact ⟨table ⟨_, small _⟩, table ⟨_, small _⟩, table ⟨_, small _⟩, table ⟨_, small _⟩⟩
  induction bytes using Base64.encode.induct with
  | case1 => exact List.not_mem_nil
  | case2 first =>
      exact List.not_mem_append (mt List.mem_of_mem_take (plain _)) (by decide)
  | case3 first second =>
      exact List.not_mem_append (mt List.mem_of_mem_take (plain _)) (by decide)
  | case4 first second third rest ih => exact List.not_mem_append (plain _) ih

section Written

variable (config : RpcConnectionConfig) (method params : ByteString)

def headerFields : List (ByteString × ByteString) :=
  [(ascii "Host", config.host ++ ascii ":" ++ decimal config.port.toNat),
    (ascii "Authorization", ascii "Basic " ++
      base64Encode (config.username ++ ascii ":" ++ config.password)),
    (ascii "Content-Type", ascii "application/json"),
    (ascii "Connection", ascii "close"),
    (ascii "Content-Length", decimal (buildRequest method params).length)]

def headerLine (header : ByteString × ByteString) : ByteString :=
  header.1 ++ ascii ": " ++ header.2

def requestLine : ByteString :=
  ascii "POST" ++ ascii " " ++ config.path ++ ascii " " ++ ascii "HTTP/1.1"

theorem requestText_eq :
    requestText config method params =
      ((requestLine config ::
        (headerFields config method params).map headerLine).flatMap fun line =>
          line ++ crlf) ++ (crlf ++ buildRequest method params) := by
  have blanks : ascii "POST " = ascii "POST" ++ ascii " " ∧
      ascii " HTTP/1.1" = ascii " " ++ ascii "HTTP/1.1" ∧
      ascii "Host: " = ascii "Host" ++ ascii ": " ∧
      ascii "Authorization: Basic " = ascii "Authorization" ++ ascii ": " ++ ascii "Basic " ∧
      ascii "Content-Type: application/json" =
        ascii "Content-Type" ++ ascii ": " ++ ascii "application/json" ∧
      ascii "Connection: close" = ascii "Connection" ++ ascii ": " ++ ascii "close" ∧
      ascii "Content-Length: " = ascii "Content-Length" ++ ascii ": " := by
    decide +kernel
  obtain ⟨post, version, host, authorization, contentType, connection, contentLength⟩ :=
    blanks
  rw [requestText, post, version, host, authorization, contentType, connection,
    contentLength]
  simp only [requestLine, headerFields, headerLine, List.map_cons, List.map_nil,
    List.flatMap_cons, List.flatMap_nil, List.append_assoc, List.append_nil]

variable {config} {method params}

theorem requestLine_plain (plain : config.Plain) :
    requestLine config ≠ [] ∧ 13 ∉ requestLine config := by
  have version : 13 ∉ ascii " " ++ ascii "HTTP/1.1" := by decide
  have post : 13 ∉ ascii "POST" ++ ascii " " := by decide
  refine ⟨List.cons_ne_nil _ _, ?_⟩
  rw [requestLine, List.append_assoc _ (ascii " ") (ascii "HTTP/1.1")]
  exact List.not_mem_append (List.not_mem_append post plain.path.2) version

theorem headerLine_plain (plain : config.Plain) :
    ∀ header ∈ headerFields config method params,
      headerLine header ≠ [] ∧ 13 ∉ headerLine header := by
  have colon {name value : ByteString} (isName : 13 ∉ name) (isValue : 13 ∉ value) :
      headerLine (name, value) ≠ [] ∧ 13 ∉ headerLine (name, value) := by
    refine ⟨by simp [headerLine, ascii], ?_⟩
    exact List.not_mem_append (List.not_mem_append isName (by decide)) isValue
  have digits (number : Nat) : 13 ∉ decimal number := notMem_decimal (by decide)
  simp only [headerFields, List.forall_mem_cons]
  refine ⟨colon (by decide) ?_, colon (by decide) ?_, colon (by decide) (by decide),
    colon (by decide) (by decide), colon (by decide) (digits _), List.forall_mem_nil _⟩
  · exact List.not_mem_append (List.not_mem_append plain.host (by decide)) (digits _)
  · rw [(base64Encode_encodes _).1]
    exact List.not_mem_append (by decide) (carriageReturn_notMem_encode _)

theorem readHeaders_map {headers : List (ByteString × ByteString)}
    (plain : ∀ header ∈ headers, 58 ∉ header.1) :
    readHeaders (headers.map headerLine) = some headers := by
  induction headers with
  | nil => rfl
  | cons header headers ih =>
      obtain ⟨isName, later⟩ := List.forall_mem_cons.mp plain
      have isHeader : readHeader (headerLine header) = some header := by
        have broken : breakAt 58 (headerLine header) = some (header.1, 32 :: header.2) := by
          rw [headerLine, List.append_assoc]
          exact breakAt_append isName _
        rw [readHeader, broken]
        rfl
      rw [List.map_cons, readHeaders, isHeader, ih later]
      rfl

/-- The request of a call is read as it was meant. -/
theorem readRequest_requestText (plain : config.Plain) :
    readRequest (requestText config method params) = some
      { method := ascii "POST"
        target := config.path
        version := ascii "HTTP/1.1"
        headers := headerFields config method params
        body := buildRequest method params } := by
  have plainLines : ∀ line ∈ requestLine config ::
      (headerFields config method params).map headerLine, line ≠ [] ∧ 13 ∉ line :=
    List.forall_mem_cons.mpr
      ⟨requestLine_plain plain, List.forall_mem_map.mpr (headerLine_plain plain)⟩
  have isHead := readHead_lines plainLines (buildRequest method params)
  have isMethod : breakAt 32 (requestLine config) =
      some (ascii "POST", config.path ++ 32 :: ascii "HTTP/1.1") := by
    have spelled : requestLine config =
        ascii "POST" ++ 32 :: (config.path ++ 32 :: ascii "HTTP/1.1") := by
      simp [requestLine, ascii]
    rw [spelled]
    exact breakAt_append (by decide) _
  have isTarget := breakAt_append plain.path.1 (ascii "HTTP/1.1")
  have isHeaders : readHeaders ((headerFields config method params).map headerLine) =
      some (headerFields config method params) := by
    apply readHeaders_map
    simp only [headerFields, List.forall_mem_cons]
    decide
  have isLength : readLength (decimal (buildRequest method params).length) =
      some (buildRequest method params).length := by
    have digits : (decimal (buildRequest method params).length).all isDigit = true :=
      List.all_eq_true.mpr (decimal_isDigit _)
    rw [readLength, if_pos ⟨decimal_ne_nil _, digits⟩, digitsValue_decimal]
  have given : (headerFields config method params).lookup (ascii "Content-Length") =
      some (decimal (buildRequest method params).length) := by
    simp only [headerFields]
    rfl
  rw [requestText_eq, readRequest, isHead]
  simp only [isMethod, isTarget, isHeaders, given, isLength, Option.bind_eq_bind,
    Option.bind_some, Nat.lt_irrefl, if_false, List.take_length]
  rfl

/-- The name and the password are read from the headers. -/
theorem credentialsOf_headerFields (plain : config.Plain) {request : HttpRequest}
    (isHeaders : request.headers = headerFields config method params) :
    credentialsOf request = some (config.username, config.password) := by
  have given : request.headers.lookup (ascii "Authorization") = some (ascii "Basic " ++
      base64Encode (config.username ++ ascii ":" ++ config.password)) := by
    rw [isHeaders]
    rfl
  have scheme : (ascii "Basic ").isPrefixOf (ascii "Basic " ++
      base64Encode (config.username ++ ascii ":" ++ config.password)) = true :=
    List.isPrefixOf_iff_prefix.mpr (List.prefix_append _ _)
  have isText : (ascii "Basic " ++ base64Encode (config.username ++ ascii ":" ++
      config.password)).drop 6 =
        base64Encode (config.username ++ ascii ":" ++ config.password) :=
    rfl
  have isPair : breakAt 58 (config.username ++ ascii ":" ++ config.password) =
      some (config.username, config.password) := by
    rw [List.append_assoc]
    exact breakAt_append plain.username _
  rw [credentialsOf, given, Option.bind_eq_bind, Option.bind_some,
    if_neg (not_not.mpr scheme), isText, (base64Encode_encodes _).2.1]
  exact isPair

end Written

/-- The object that a request is, for a plain method. -/
def requestObject (method : String) (plain : isPlain method = true) {params : ByteString}
    (isValue : IsValue params) : Object where
  before := .empty
  blank := .empty
  members :=
    [plainMember "jsonrpc" (by decide) (plainLiteral "1.0" (by decide)).text,
      plainMember "id" (by decide) (plainLiteral "blocxxi" (by decide)).text,
      plainMember "method" (by decide) (plainLiteral method plain).text,
      plainMember "params" (by decide) params]
  values := by
    simp only [List.forall_mem_cons]
    exact ⟨.string _, .string _, .string _, isValue, List.forall_mem_nil _⟩
  after := .empty

section Body

variable {method : String} {params : ByteString}

theorem requestObject_text (plain : isPlain method = true) (isValue : IsValue params) :
    (requestObject method plain isValue).text = buildRequest (ascii method) params := by
  simp only [requestObject, Object.text, Object.inner, objectText, listed, List.map_cons,
    List.map_nil, separated, Blank.empty, Literal.text, plainLiteral_body, plainMember_text,
    buildRequest]
  simp [ascii]

/-- The keys of a request. -/
theorem requestObject_keys (plain : isPlain method = true) (isValue : IsValue params) :
    (requestObject method plain isValue).members.map (fun member => member.key.body) =
      ["jsonrpc", "id", "method", "params"].map ascii := by
  simp [requestObject, plainMember, plainLiteral_body]

theorem requestObject_plainKeys (plain : isPlain method = true)
    (isValue : IsValue params) : (requestObject method plain isValue).PlainKeys where
  plain := by
    have keys : ∀ key ∈ ["jsonrpc", "id", "method", "params"].map ascii,
        reverseSolidus ∉ key := by
      decide
    rw [← requestObject_keys plain isValue, List.forall_mem_map] at keys
    exact keys
  distinct := by
    rw [requestObject_keys]
    decide

/-- The body is an object of JSON, in which the method and the parameters are found. -/
theorem rpcCallOf_buildRequest (plain : isPlain method = true) (isValue : IsValue params) :
    rpcCallOf (buildRequest (ascii method) params) = some (ascii method, params) := by
  have plainKeys := requestObject_plainKeys plain isValue
  have isText := requestObject_text plain isValue
  have isMethod := plainLiteral_body plain
  have found : findObjectValue (buildRequest (ascii method) params) (ascii "method") =
      some (plainLiteral method plain).text := by
    have inside : plainMember "method" (by decide) (plainLiteral method plain).text ∈
        (requestObject method plain isValue).members :=
      List.mem_cons_of_mem _ (List.mem_cons_of_mem _ List.mem_cons_self)
    have isFound := findObjectValue_member plainKeys inside
    rw [isText, plainMember, plainLiteral_body] at isFound
    exact isFound
  have foundParams : findObjectValue (buildRequest (ascii method) params)
      (ascii "params") = some params := by
    have inside : plainMember "params" (by decide) params ∈
        (requestObject method plain isValue).members :=
      List.mem_cons_of_mem _ (List.mem_cons_of_mem _ (List.mem_cons_of_mem _
        List.mem_cons_self))
    have isFound := findObjectValue_member plainKeys inside
    rw [isText, plainMember, plainLiteral_body] at isFound
    exact isFound
  have noEscape : reverseSolidus ∉ (plainLiteral method plain).body := by
    rw [isMethod]
    intro escaped
    obtain ⟨character, member, isByte⟩ := List.mem_map.mp escaped
    obtain ⟨unescaped, small⟩ := isPlain_iff.mp plain character member
    have isNat := congrArg UInt8.toNat isByte
    rw [UInt8.toNat_ofNat', Nat.mod_eq_of_lt (by omega)] at isNat
    exact unescaped.2.2 isNat
  rw [rpcCallOf, found, Option.bind_eq_bind, Option.bind_some, parseString_plain noEscape,
    isMethod, foundParams]
  rfl

end Body

end Bitcoin

end Blocxxi
