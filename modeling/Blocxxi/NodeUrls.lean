import Blocxxi.KademliaNode

/-!
# Node URLs

A node is made from a URL such as `knode://id@address:port`, which is cut at the first
`://`, the first `@` behind it and the last colon.  The digits of the id, the address
and the port are then left to routines of their own.  That of the port takes more than
a port: it skips blanks, knows signs, stops at the first character that is no digit,
and its number is cut down to sixteen bits.
-/

namespace Blocxxi

namespace Kademlia

open Cxx ByteText

/-- `std::string::find` of a text: the first position where it stands. -/
def findText (pattern : ByteString) : ByteString → Option Nat
  | [] => if pattern = [] then some 0 else none
  | byte :: rest =>
      if pattern.isPrefixOf (byte :: rest) then some 0
      else (findText pattern rest).map (· + 1)

/-- `std::string::rfind`: the last position of the byte. -/
def rfindByte (byte : UInt8) : ByteString → Option Nat
  | [] => none
  | first :: rest =>
      match rfindByte byte rest with
      | some index => some (index + 1)
      | none => if first = byte then some 0 else none

/-- `text.substr(start, pos - start)`; a difference below zero wraps to a length that no
text has, and the whole rest is taken. -/
def slice (text : ByteString) (start pos : Nat) : ByteString :=
  if start ≤ pos then (text.drop start).take (pos - start) else text.drop start

/-- `std::stoi`: leading white space, an optional sign and the longest run of digits,
whatever follows. -/
def stoi (text : ByteString) : Except Fault Int :=
  let (negative, rest) := splitSign (text.dropWhile isSpace)
  let digits := rest.takeWhile isDigit
  let value : Int :=
    if negative then -(digitsValue digits : Int) else digitsValue digits
  if digits = [] then .error (.exception "stoi")
  else if value < -2 ^ 31 ∨ 2 ^ 31 ≤ value then .error (.exception "stoi")
  else .ok value

/-- The texts of the id, the address and the port, if the URL has such parts. -/
def urlParts (url : ByteString) : Option (ByteString × ByteString × ByteString) := do
  let pos ← findText (ascii "://") url
  let urlType := slice url 0 pos
  if urlType = ascii "knode" then
    let start := pos + 3
    let pos ← findFrom 64 url start
    let id := slice url start pos
    if id.length = 40 then
      let start := pos + 1
      let pos ← rfindByte 58 url
      let address := slice url start pos
      let port := url.drop (pos + 1)
      some (id, address, port)
    else none
  else none

/-- `FromUrlString`. -/
def fromUrlString {Address : Type} (asio : AddressText Address) (url : ByteString) :
    Except Fault (NodeObject Address) :=
  match urlParts url with
  | some (id, address, port) => do
      let nodeId ← Hash.fromHex id false
      let portNumber ← stoi port
      NodeObject.ofText asio nodeId address (UInt16.ofInt portNumber)
  | none =>
      .error (.exception ("bad node url: " ++
        String.ofList (url.map fun byte => Char.ofNat byte.toNat)))

theorem findText_some {pattern text : ByteString} {index : Nat}
    (found : findText pattern text = some index) :
    ∃ front rest, text = front ++ (pattern ++ rest) ∧ front.length = index := by
  induction text generalizing index with
  | nil =>
      unfold findText at found
      split at found
      · rename_i empty
        cases found
        exact ⟨[], [], by simp [empty], rfl⟩
      · cases found
  | cons byte rest ih =>
      unfold findText at found
      split at found
      · rename_i isPrefix
        cases found
        obtain ⟨behind, split⟩ := List.isPrefixOf_iff_prefix.mp isPrefix
        exact ⟨[], behind, split.symm, rfl⟩
      · obtain ⟨before, isFound, rfl⟩ := Option.map_eq_some_iff.mp found
        obtain ⟨front, behind, split, length⟩ := ih isFound
        exact ⟨byte :: front, behind, by rw [split]; rfl, by rw [List.length_cons, length]⟩

theorem findFrom_cut {byte : UInt8} {front : ByteString} (absent : byte ∉ front)
    (skipped rest : ByteString) :
    findFrom byte (skipped ++ (front ++ byte :: rest)) skipped.length =
      some (skipped.length + front.length) := by
  simp [findFrom, List.findIdx?_append, findIdx_of_notMem absent, List.findIdx?_cons]

theorem findFrom_some {byte : UInt8} {skipped text : ByteString} {index : Nat}
    (found : findFrom byte (skipped ++ text) skipped.length = some index) :
    ∃ front rest, text = front ++ byte :: rest ∧ byte ∉ front ∧
      index = skipped.length + front.length := by
  have member : byte ∈ text := by
    rw [findFrom, List.drop_left] at found
    obtain ⟨relative, isFound, -⟩ := Option.map_eq_some_iff.mp found
    obtain ⟨inside, isByte, -⟩ := List.findIdx?_eq_some_iff_getElem.mp isFound
    rw [← beq_iff_eq.mp isByte]
    exact List.getElem_mem inside
  obtain ⟨front, rest, rfl, absent⟩ := List.eq_append_cons_of_mem member
  rw [findFrom_cut absent] at found
  exact ⟨front, rest, rfl, absent, (Option.some.inj found).symm⟩

theorem rfindByte_eq_none_iff {byte : UInt8} {text : ByteString} :
    rfindByte byte text = none ↔ byte ∉ text := by
  induction text with
  | nil => simp [rfindByte]
  | cons first rest ih =>
      rw [rfindByte, List.mem_cons, not_or, ← ih]
      cases rfindByte byte rest with
      | some index => simp
      | none => simp [eq_comm]

theorem rfindByte_cut {byte : UInt8} {rest : ByteString} (absent : byte ∉ rest)
    (front : ByteString) : rfindByte byte (front ++ byte :: rest) = some front.length := by
  induction front with
  | nil =>
      rw [List.nil_append, rfindByte, rfindByte_eq_none_iff.mpr absent]
      simp
  | cons first front ih => rw [List.cons_append, rfindByte, ih, List.length_cons]

theorem rfindByte_some {byte : UInt8} {text : ByteString} {index : Nat}
    (found : rfindByte byte text = some index) :
    ∃ front rest, text = front ++ byte :: rest ∧ byte ∉ rest ∧ front.length = index := by
  have member : byte ∈ text.reverse := by
    rw [List.mem_reverse]
    by_contra absent
    rw [rfindByte_eq_none_iff.mpr absent] at found
    cases found
  obtain ⟨behind, before, split, absent⟩ := List.eq_append_cons_of_mem member
  have isText : text = before.reverse ++ byte :: behind.reverse := by
    rw [← text.reverse_reverse, split]
    simp
  have notBehind : byte ∉ behind.reverse := by rwa [List.mem_reverse]
  rw [isText, rfindByte_cut notBehind] at found
  exact ⟨before.reverse, behind.reverse, isText, notBehind, Option.some.inj found⟩

theorem slice_middle (front middle rest : ByteString) :
    slice (front ++ (middle ++ rest)) front.length (front.length + middle.length) =
      middle := by
  simp [slice]

/-- A URL with its parts in place. -/
def urlText (id address port : ByteString) : ByteString :=
  ascii "knode://" ++ (id ++ 64 :: (address ++ 58 :: port))

theorem urlText_cut (id address port : ByteString) :
    urlText id address port =
      (ascii "knode://" ++ (id ++ 64 :: address)) ++ 58 :: port := by
  simp [urlText]

theorem slice_address (id address port : ByteString) :
    slice (urlText id address port) ((ascii "knode://").length + id.length + 1)
      (ascii "knode://" ++ (id ++ 64 :: address)).length = address := by
  have isMiddle := slice_middle (ascii "knode://" ++ (id ++ [64])) address (58 :: port)
  have start : (ascii "knode://" ++ (id ++ [64])).length =
      (ascii "knode://").length + id.length + 1 := by
    simp [Nat.add_assoc]
  have behind : (ascii "knode://" ++ (id ++ 64 :: address)).length =
      (ascii "knode://").length + id.length + 1 + address.length := by
    simp [Nat.add_assoc, Nat.add_comm 1]
  rw [start, ← behind] at isMiddle
  simpa [urlText] using isMiddle

/-- A URL that is spelled with a colon-free port is cut where its parts meet. -/
theorem urlParts_urlText {id address port : ByteString} (wide : id.length = 40)
    (noAt : 64 ∉ id) (noColon : 58 ∉ port) :
    urlParts (urlText id address port) = some (id, address, port) := by
  have scheme : findText (ascii "://") (urlText id address port) = some 5 := rfl
  have urlType : slice (urlText id address port) 0 5 = ascii "knode" := rfl
  have atSign : findFrom 64 (urlText id address port) 8 = some (8 + id.length) :=
    findFrom_cut noAt (ascii "knode://") _
  have idText : slice (urlText id address port) 8 (8 + id.length) = id :=
    slice_middle (ascii "knode://") id _
  have cutLength : (ascii "knode://" ++ (id ++ 64 :: address)).length =
      49 + address.length := by
    simp only [List.length_append, List.length_cons, wide]
    rw [show (ascii "knode://").length = 8 from rfl]
    omega
  have colon : rfindByte 58 (urlText id address port) = some (49 + address.length) := by
    rw [urlText_cut, rfindByte_cut noColon, cutLength]
  have addressText : slice (urlText id address port) 49 (49 + address.length) = address := by
    have isMiddle := slice_address id address port
    rwa [cutLength, wide] at isMiddle
  have portText : (urlText id address port).drop (49 + address.length + 1) = port := by
    rw [urlText_cut, ← cutLength, List.drop_length_add_append]
    rfl
  rw [wide] at atSign idText
  simp only [urlParts, scheme, urlType, atSign, idText, colon, wide, addressText, portText,
    Option.bind_eq_bind, Option.bind_some, if_true]

/-- The last colon of a URL is behind the `@`, in the id or in the scheme. -/
theorem lastColon_cases {id others before port : ByteString}
    (same : ascii "knode://" ++ (id ++ 64 :: others) = before ++ 58 :: port)
    (noColon : 58 ∉ port) :
    (∃ address, before = ascii "knode://" ++ (id ++ 64 :: address) ∧
        others = address ++ 58 :: port) ∨
      58 ∈ id ∨ ∃ rest, port = 47 :: rest := by
  obtain ⟨behind, rfl, tail⟩ | ⟨behind, scheme, tail⟩ := List.append_eq_append_iff.mp same
  · obtain ⟨address, rfl, isRest⟩ | ⟨inside, rfl, isPort⟩ := List.append_eq_append_iff.mp tail
    · cases address with
      | nil => cases isRest
      | cons first address =>
          obtain ⟨rfl, isOthers⟩ := List.cons.inj isRest
          exact .inl ⟨address, rfl, isOthers⟩
    · cases inside with
      | nil => cases isPort
      | cons first inside =>
          obtain ⟨rfl, -⟩ := List.cons.inj isPort
          exact .inr (.inl (by simp))
  · cases behind with
    | nil =>
        cases id with
        | nil => cases tail
        | cons first id =>
            obtain ⟨rfl, -⟩ := List.cons.inj tail
            exact .inr (.inl List.mem_cons_self)
    | cons first behind =>
        obtain ⟨rfl, isPort⟩ := List.cons.inj tail
        have notBehind : 58 ∉ behind := fun member =>
          noColon (isPort ▸ List.mem_append_left _ member)
        -- The only colon of the scheme has two slashes behind it.
        have found := rfindByte_cut notBehind before
        rw [← scheme, show rfindByte 58 (ascii "knode://") = some 5 from rfl] at found
        have dropped : (before ++ 58 :: behind).drop (before.length + 1) = behind := by
          rw [List.drop_length_add_append]
          rfl
        rw [← scheme, ← Option.some.inj found] at dropped
        exact .inr (.inr ⟨47 :: (id ++ 64 :: others), by rw [isPort, ← dropped]; rfl⟩)

/-- Where a URL is cut, its parts stand in place; else the last colon is in front of the
`@`, and the id or the port shows it. -/
theorem urlParts_some {url id address port : ByteString}
    (found : urlParts url = some (id, address, port)) :
    id.length = 40 ∧
      (url = urlText id address port ∧ 58 ∉ port ∨ 58 ∈ id ∨
        ∃ rest, port = 47 :: rest) := by
  simp only [urlParts, Option.bind_eq_bind, Option.bind_eq_some_iff, Option.ite_none_right_eq_some,
    Option.some.injEq, Prod.mk.injEq] at found
  obtain ⟨scheme, isScheme, urlType, atSign, isAt, wide, colon, isColon, rfl, rfl, rfl⟩ := found
  obtain ⟨front, behind, rfl, rfl⟩ := findText_some isScheme
  have isFront : front = ascii "knode" := by
    rw [← urlType]
    simp [slice]
  subst isFront
  have isUrl : ascii "knode" ++ (ascii "://" ++ behind) = ascii "knode://" ++ behind := rfl
  rw [isUrl] at isAt isColon wide ⊢
  obtain ⟨id, others, rfl, noAt, rfl⟩ := @findFrom_some 64 (ascii "knode://") _ _ isAt
  have isId : slice (ascii "knode://" ++ (id ++ 64 :: others)) ((ascii "knode").length + 3)
      ((ascii "knode://").length + id.length) = id :=
    slice_middle (ascii "knode://") id _
  rw [isId] at wide ⊢
  obtain ⟨before, port, split, noColon, rfl⟩ := rfindByte_some isColon
  have isPort : (ascii "knode://" ++ (id ++ 64 :: others)).drop (before.length + 1) = port := by
    rw [split, List.drop_length_add_append]
    rfl
  rw [isPort]
  refine ⟨wide, ?_⟩
  obtain ⟨address, rfl, rfl⟩ | elsewhere := lastColon_cases split noColon
  · left
    have isAddress := slice_address id address port
    rw [urlText] at isAddress
    rw [isAddress]
    exact ⟨rfl, noColon⟩
  · exact .inr elsewhere

/-- The text starts with blanks, a sign and digits, and these spell the number. -/
def StartsWithNumber (text : ByteString) (number : Int) : Prop :=
  ∃ blanks sign digits rest, text = blanks ++ (sign ++ (digits ++ rest)) ∧
    (∀ byte ∈ blanks, isSpace byte = true) ∧
    digits ≠ [] ∧ (∀ byte ∈ digits, isDigit byte = true) ∧
    (∀ byte ∈ rest.head?, isDigit byte = false) ∧
    (sign = [45] ∧ number = -(digitsValue digits : Int) ∨
      (sign = [] ∨ sign = [43]) ∧ number = digitsValue digits)

theorem splitSign_cases {text rest : ByteString} {negative : Bool}
    (split : splitSign text = (negative, rest)) :
    ∃ sign, text = sign ++ rest ∧
      (sign = [45] ∧ negative = true ∨ (sign = [] ∨ sign = [43]) ∧ negative = false) := by
  unfold splitSign at split
  split at split
  · cases split
    exact ⟨[45], rfl, .inl ⟨rfl, rfl⟩⟩
  · cases split
    exact ⟨[43], rfl, .inr ⟨.inr rfl, rfl⟩⟩
  · cases split
    exact ⟨[], rfl, .inr ⟨.inl rfl, rfl⟩⟩

/-- Blanks and a sign are skipped in front of a digit. -/
theorem splitSign_skips {blanks sign rest : ByteString} {first : UInt8}
    (areBlank : ∀ byte ∈ blanks, isSpace byte = true) (digit : isDigit first = true)
    (isSign : sign = [45] ∨ sign = [] ∨ sign = [43]) :
    splitSign ((blanks ++ (sign ++ first :: rest)).dropWhile isSpace) =
      (decide (sign = [45]), first :: rest) := by
  rw [List.dropWhile_append_of_pos areBlank]
  obtain rfl | rfl | rfl := isSign
  · rfl
  · have notSpace := isSpace_of_isDigit digit
    have range := (isDigit_iff first).mp digit
    rw [List.nil_append, List.dropWhile_cons_of_neg (by simp [notSpace])]
    unfold splitSign
    split
    · rename_i same
      cases same
      simp at range
    · rename_i same
      cases same
      simp at range
    · rfl
  · rfl

theorem takeWhile_number {digits rest : ByteString}
    (allDigits : ∀ byte ∈ digits, isDigit byte = true)
    (ends : ∀ byte ∈ rest.head?, isDigit byte = false) :
    (digits ++ rest).takeWhile isDigit = digits := by
  rw [List.takeWhile_append_of_pos allDigits]
  cases rest with
  | nil => simp
  | cons first rest => simp [ends first rfl]

/-- `std::stoi` reads the number at the front, if it fits an `int`. -/
theorem stoi_ok_iff {text : ByteString} {number : Int} :
    stoi text = .ok number ↔
      StartsWithNumber text number ∧ -2 ^ 31 ≤ number ∧ number < 2 ^ 31 := by
  constructor
  · intro isOk
    unfold stoi at isOk
    cases signed : splitSign (text.dropWhile isSpace) with
    | mk negative rest =>
        obtain ⟨sign, isText, isSign⟩ := splitSign_cases signed
        simp only [signed] at isOk
        generalize isNumber : (if negative = true then
            -(digitsValue (rest.takeWhile isDigit) : Int)
          else digitsValue (rest.takeWhile isDigit)) = value at isOk
        split_ifs at isOk with nonempty fits
        cases isOk
        refine ⟨⟨text.takeWhile isSpace, sign, rest.takeWhile isDigit, rest.dropWhile isDigit,
          ?_, ?_, nonempty, ?_, ?_, ?_⟩, by omega⟩
        · rw [List.takeWhile_append_dropWhile, ← isText, List.takeWhile_append_dropWhile]
        · exact fun byte member => List.mem_takeWhile_imp member
        · exact fun byte member => List.mem_takeWhile_imp member
        · intro byte member
          have notDigit := List.head?_dropWhile_not isDigit rest
          rw [Option.mem_def.mp member] at notDigit
          simpa using notDigit
        · obtain ⟨isMinus, rfl⟩ | ⟨noMinus, rfl⟩ := isSign
          · exact .inl ⟨isMinus, by simp [← isNumber]⟩
          · exact .inr ⟨noMinus, by simp [← isNumber]⟩
  · rintro ⟨⟨blanks, sign, digits, rest, rfl, areBlank, nonempty, allDigits, ends, isSigned⟩,
      lower, upper⟩
    cases digits with
    | nil => exact absurd rfl nonempty
    | cons first digits =>
        have isSign : sign = [45] ∨ sign = [] ∨ sign = [43] :=
          isSigned.imp And.left And.left
        have digit := allDigits first List.mem_cons_self
        have skipped := @splitSign_skips blanks sign (digits ++ rest) first areBlank digit isSign
        have taken := takeWhile_number allDigits ends
        rw [List.cons_append] at taken
        have isNumber : (if decide (sign = [45]) = true then
            -(digitsValue (first :: digits) : Int) else digitsValue (first :: digits)) =
              number := by
          obtain ⟨rfl, rfl⟩ | ⟨rfl | rfl, rfl⟩ := isSigned
          · rfl
          · rfl
          · rfl
        simp only [stoi, List.cons_append, skipped, taken, isNumber, nonempty, if_false]
        rw [if_neg (by omega)]

/-- The forty hexadecimal digits, in either case, of an id. -/
def Denotes (digits : ByteString) (id : Hash160) : Prop :=
  digits.length = 40 ∧ (∀ character ∈ digits, Hex.HexDigit character) ∧
    id.toHex = digits.map Hex.lowerCaseDigit

theorem Denotes.notMem {digits : ByteString} {id : Hash160} (denotes : Denotes digits id)
    {separator : UInt8} (special : ¬ Hex.HexDigit separator) : separator ∉ digits :=
  fun member => special (denotes.2.1 separator member)

theorem denotes_of_fromHex {digits : ByteString} {id : Hash160} (wide : digits.length = 40)
    (isOk : Hash.fromHex digits false = .ok id) : Denotes digits id := by
  have decoded := Hash.fromHex_eq_ok_iff.mp isOk
  have even : digits.length % 2 = 0 := by rw [wide]
  have fits : digits.length / 2 ≤ (Hash.zero : Hash160).bytes.length := by
    rw [wide, Hash.size_eq]
  have isHex := (Hex.decode_iff false even fits).1.mp ⟨_, decoded⟩
  have shown := Hex.encode_decode true even fits decoded
  have whole : id.bytes.take (digits.length / 2) = id.bytes := by
    rw [wide, List.take_of_length_le]
    rw [id.size_eq]
  rw [whole, Hex.encode_lowerCaseDigit] at shown
  exact ⟨wide, isHex, shown⟩

theorem fromHex_ok_iff {digits : ByteString} {id : Hash160} (wide : digits.length = 40) :
    Hash.fromHex digits false = .ok id ↔ Denotes digits id := by
  refine ⟨denotes_of_fromHex wide, fun denotes => ?_⟩
  have even : digits.length % 2 = 0 := by rw [wide]
  have fits : digits.length / 2 ≤ (Hash.zero : Hash160).bytes.length := by
    rw [wide, Hash.size_eq]
  obtain ⟨bytes, decoded⟩ := (Hex.decode_iff false even fits).1.mpr denotes.2.1
  have width : bytes.length = 160 / 8 := by rw [Hex.decode_length decoded, Hash.size_eq]
  have read : Hash.fromHex digits false = .ok (⟨bytes, width⟩ : Hash160) :=
    Hash.fromHex_eq_ok_iff.mpr decoded
  have sameText : (⟨bytes, width⟩ : Hash160).toHex = id.toHex := by
    rw [(denotes_of_fromHex wide read).2.2, denotes.2.2]
  rw [read, Hash.toHex_injective sameText]

theorem denotes_toHex (id : Hash160) : Denotes id.toHex id :=
  denotes_of_fromHex (Hash.toHex_length id) (Hash.fromHex_toHex id)

section Urls

variable {Address : Type}

theorem ofText_ok_iff {asio : AddressText Address} {nodeId : Hash160} {ipAddress : ByteString}
    {port : UInt16} {node : NodeObject Address} :
    NodeObject.ofText asio nodeId ipAddress port = .ok node ↔
      ∃ found, asio.makeAddress ipAddress = .ok found ∧
        node = .ofEndpoint nodeId ⟨found, port⟩ := by
  unfold NodeObject.ofText
  cases asio.makeAddress ipAddress with
  | error fault => simp [bind, Except.bind]
  | ok found =>
      simp only [bind, Except.bind, Except.ok.injEq, exists_eq_left']
      exact eq_comm

/-- A URL is read exactly if it has an id, an address and a text that starts with a
number, after its last colon. -/
theorem fromUrlString_ok_iff {asio : AddressText Address} {url : ByteString}
    {node : NodeObject Address} :
    fromUrlString asio url = .ok node ↔
      ∃ digits address port nodeId found number, url = urlText digits address port ∧
        Denotes digits nodeId ∧ asio.makeAddress address = .ok found ∧
        58 ∉ port ∧ StartsWithNumber port number ∧ -2 ^ 31 ≤ number ∧ number < 2 ^ 31 ∧
        node = .ofEndpoint nodeId ⟨found, UInt16.ofInt number⟩ := by
  constructor
  · intro isOk
    unfold fromUrlString at isOk
    split at isOk
    · rename_i digits address port parts
      obtain ⟨wide, placed⟩ := urlParts_some parts
      cases idRead : Hash.fromHex digits false with
      | error fault =>
          rw [idRead] at isOk
          cases isOk
      | ok nodeId =>
          cases portRead : stoi port with
          | error fault =>
              rw [idRead, portRead] at isOk
              cases isOk
          | ok number =>
              rw [idRead, portRead] at isOk
              obtain ⟨found, isAddress, rfl⟩ := ofText_ok_iff.mp isOk
              have denotes := denotes_of_fromHex wide idRead
              obtain ⟨starts, lower, upper⟩ := stoi_ok_iff.mp portRead
              obtain ⟨rfl, noColon⟩ | inId | ⟨rest, rfl⟩ := placed
              · exact ⟨digits, address, port, nodeId, found, number, rfl, denotes, isAddress,
                  noColon, starts, lower, upper, rfl⟩
              · exact absurd inId (denotes.notMem (by decide))
              · cases portRead
    · cases isOk
  · rintro ⟨digits, address, port, nodeId, found, number, rfl, denotes, isAddress, noColon,
      starts, lower, upper, rfl⟩
    have parts : urlParts (urlText digits address port) = some (digits, address, port) :=
      urlParts_urlText denotes.1 (denotes.notMem (by decide)) noColon
    have idRead := (fromHex_ok_iff denotes.1).mpr denotes
    have portRead := stoi_ok_iff.mpr ⟨starts, lower, upper⟩
    rw [fromUrlString, parts]
    dsimp only
    rw [idRead, portRead]
    exact ofText_ok_iff.mpr ⟨found, isAddress, rfl⟩

/-- The text is the decimal number of the port and nothing else. -/
def SpellsPort (text : ByteString) (port : UInt16) : Prop :=
  text ≠ [] ∧ (∀ byte ∈ text, isDigit byte = true) ∧ digitsValue text = port.toNat

theorem SpellsPort.startsWithNumber {text : ByteString} {port : UInt16}
    (isPort : SpellsPort text port) :
    StartsWithNumber text port.toNat :=
  ⟨[], [], text, [], by simp, by simp, isPort.1, isPort.2.1, by simp,
    .inr ⟨.inl rfl, by rw [isPort.2.2]⟩⟩

theorem SpellsPort.noColon {text : ByteString} {port : UInt16} (isPort : SpellsPort text port) :
    58 ∉ text :=
  fun member => absurd (isPort.2.1 58 member) (by decide)

theorem spellsPort_decimal (port : UInt16) : SpellsPort (decimal port.toNat) port :=
  ⟨decimal_ne_nil _, decimal_isDigit _, digitsValue_decimal _⟩

theorem ofInt_toNat (port : UInt16) : UInt16.ofInt (port.toNat : Int) = port := by
  have below := port.toNat_lt
  have small : ((port.toNat : Int) % 2 ^ 16).toNat = port.toNat := by omega
  rw [UInt16.ofInt, small, UInt16.ofNat_toNat]

theorem stoi_of_spellsPort {text : ByteString} {port : UInt16} (isPort : SpellsPort text port) :
    stoi text = .ok (port.toNat : Int) := by
  have below := port.toNat_lt
  exact stoi_ok_iff.mpr ⟨isPort.startsWithNumber, by omega, by omega⟩

/-- The URL is spelled as a node URL of the id and the endpoint. -/
def Spelled (asio : AddressText Address) (url : ByteString) (id : Hash160)
    (endpoint : Endpoint Address) : Prop :=
  ∃ digits address port, url = urlText digits address port ∧ Denotes digits id ∧
    asio.makeAddress address = .ok endpoint.address ∧ SpellsPort port endpoint.port

/-- A node is read from the URL exactly if it is spelled as the node's. -/
def Respected (asio : AddressText Address) (url : ByteString) : Prop :=
  ∀ id endpoint,
    (∃ node, fromUrlString asio url = .ok node ∧ node.nodeId = id ∧
      node.endpoint = endpoint) ↔ Spelled asio url id endpoint

/-- The URL has an id and an address, and where the port should be, a text that only
starts with a number or is the number of no port. -/
def LooselyPorted (asio : AddressText Address) (url : ByteString) : Prop :=
  ∃ digits address port id found number, url = urlText digits address port ∧
    Denotes digits id ∧ asio.makeAddress address = .ok found ∧ 58 ∉ port ∧
    StartsWithNumber port number ∧ -2 ^ 31 ≤ number ∧ number < 2 ^ 31 ∧
    ∀ isPort, ¬ SpellsPort port isPort

theorem urlText_port_unique {asio : AddressText Address} {digits address port : ByteString}
    {id id' : Hash160} {endpoint : Endpoint Address} (denotes : Denotes digits id)
    (noColon : 58 ∉ port) (spelled : Spelled asio (urlText digits address port) id' endpoint) :
    SpellsPort port endpoint.port := by
  obtain ⟨digits', address', port', same, denotes', -, isPort⟩ := spelled
  have parts : urlParts (urlText digits address port) = some (digits, address, port) :=
    urlParts_urlText denotes.1 (denotes.notMem (by decide)) noColon
  rw [same, urlParts_urlText denotes'.1 (denotes'.notMem (by decide)) isPort.noColon] at parts
  cases parts
  exact isPort

/-- What is spelled as it should be is always read. -/
theorem fromUrlString_of_spelled {asio : AddressText Address} {url : ByteString}
    {id : Hash160} {endpoint : Endpoint Address} (spelled : Spelled asio url id endpoint) :
    fromUrlString asio url = .ok (.ofEndpoint id endpoint) := by
  obtain ⟨digits, address, port, rfl, denotes, isAddress, isPort⟩ := spelled
  have below := endpoint.port.toNat_lt
  refine fromUrlString_ok_iff.mpr ⟨digits, address, port, id, endpoint.address,
    endpoint.port.toNat, rfl, denotes, isAddress, isPort.noColon, isPort.startsWithNumber,
    by omega, by omega, ?_⟩
  rw [ofInt_toNat]

theorem respected_of_not_looselyPorted {asio : AddressText Address} {url : ByteString}
    (notLoose : ¬ LooselyPorted asio url) : Respected asio url := by
  intro id endpoint
  constructor
  · rintro ⟨node, isOk, rfl, rfl⟩
    obtain ⟨digits, address, port, nodeId, found, number, rfl, denotes, isAddress, noColon,
      starts, lower, upper, rfl⟩ := fromUrlString_ok_iff.mp isOk
    have plain : ∃ isPort, SpellsPort port isPort := by
      by_contra none
      exact notLoose ⟨digits, address, port, nodeId, found, number, rfl, denotes, isAddress,
        noColon, starts, lower, upper, not_exists.mp none⟩
    obtain ⟨plainPort, isPort⟩ := plain
    have read := stoi_ok_iff.mpr ⟨starts, lower, upper⟩
    rw [stoi_of_spellsPort isPort] at read
    cases read
    refine ⟨digits, address, port, rfl, denotes, isAddress, ?_⟩
    change SpellsPort port (UInt16.ofInt plainPort.toNat)
    rwa [ofInt_toNat]
  · exact fun spelled => ⟨_, fromUrlString_of_spelled spelled, rfl, rfl⟩

theorem not_looselyPorted_of_respected {asio : AddressText Address} {url : ByteString}
    (respected : Respected asio url) : ¬ LooselyPorted asio url := by
  rintro ⟨digits, address, port, id, found, number, rfl, denotes, isAddress, noColon, starts,
    lower, upper, notPort⟩
  have isOk := fromUrlString_ok_iff.mpr ⟨digits, address, port, id, found, number, rfl, denotes,
    isAddress, noColon, starts, lower, upper, rfl⟩
  have spelled := (respected id ⟨found, UInt16.ofInt number⟩).mp ⟨_, isOk, rfl, rfl⟩
  exact notPort _ (urlText_port_unique denotes noColon spelled)

theorem currentUrl_spelled {asio : AddressText Address} {node : NodeObject Address}
    (readBack : asio.makeAddress (asio.toText node.endpoint.address) =
      .ok node.endpoint.address) :
    Spelled asio (node.currentUrl asio) node.nodeId node.endpoint :=
  ⟨node.nodeId.toHex, asio.toText node.endpoint.address, decimal node.endpoint.port.toNat, rfl,
    denotes_toHex _, readBack, spellsPort_decimal _⟩

/-- The URLs that are read as they are spelled are all but those with a loose port; and
the URL of a node whose URL was never asked for is read back. -/
theorem fromUrlString_respects (asio : AddressText Address) :
    (∀ url, Respected asio url ↔ ¬ LooselyPorted asio url) ∧
      ∀ node : NodeObject Address, node.url = none →
        asio.makeAddress (asio.toText node.endpoint.address) = .ok node.endpoint.address →
          ∃ read, fromUrlString asio (node.toString asio).1 = .ok read ∧
            read.nodeId = node.nodeId ∧ read.endpoint = node.endpoint := by
  refine ⟨fun url => ⟨not_looselyPorted_of_respected, respected_of_not_looselyPorted⟩,
    fun node fresh readBack => ?_⟩
  rw [NodeObject.toString, fresh]
  exact ⟨_, fromUrlString_of_spelled (currentUrl_spelled readBack), rfl, rfl⟩

end Urls

/-- A library that knows the address `192.168.1.35`. -/
def oneAddress : AddressText ByteString where
  makeAddress text :=
    if text = ascii "192.168.1.35" then .ok [192, 168, 1, 35]
    else .error (.exception "make_address: Invalid argument")
  toText _ := ascii "192.168.1.35"

def nodeAt (port : UInt16) : NodeObject ByteString :=
  .ofEndpoint Hash.zero ⟨[192, 168, 1, 35], port⟩

theorem nodeAt_readBack :
    ∃ read, fromUrlString oneAddress ((nodeAt 4242).toString oneAddress).1 = .ok read ∧
      read.nodeId = (nodeAt 4242).nodeId ∧ read.endpoint = (nodeAt 4242).endpoint :=
  (fromUrlString_respects oneAddress).2 (nodeAt 4242) rfl rfl

/-- The URL of the node with a port that does not fit sixteen bits. -/
def overflowingUrl : ByteString :=
  urlText (List.replicate 40 48) (ascii "192.168.1.35") (ascii "65536")

theorem overflowingUrl_read :
    fromUrlString oneAddress overflowingUrl = .ok (nodeAt 0) ∧
      ¬ Respected oneAddress overflowingUrl := by
  have denotes : Denotes (List.replicate 40 48) Hash.zero := by
    refine ⟨rfl, fun character member => ?_, rfl⟩
    rw [List.eq_of_mem_replicate member]
    decide
  have isOk : fromUrlString oneAddress overflowingUrl = .ok (nodeAt 0) := by
    rfl
  refine ⟨isOk, fun respected => ?_⟩
  have spelled := (respected Hash.zero ⟨[192, 168, 1, 35], 0⟩).mp ⟨_, isOk, rfl, rfl⟩
  have isPort : SpellsPort (ascii "65536") 0 := urlText_port_unique denotes (by decide) spelled
  exact absurd isPort.2.2 (by decide)

end Kademlia

end Blocxxi
