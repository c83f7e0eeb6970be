import Blocxxi.ByteText

/-!
# The grammar of JSON

The texts of RFC 8259, as byte strings in UTF-8.  Which strings of bytes are a
value is an inductive predicate.  An object is given by its members, with the
white space that stands around the tokens, and a string literal by its pieces,
so that what it denotes can be said as well.
-/

namespace JsonGrammar

open ByteText

abbrev quotationMark : UInt8 := 34
abbrev valueSeparator : UInt8 := 44
abbrev nameSeparator : UInt8 := 58
abbrev beginArray : UInt8 := 91
abbrev reverseSolidus : UInt8 := 92
abbrev endArray : UInt8 := 93
abbrev beginObject : UInt8 := 123
abbrev endObject : UInt8 := 125

def isBlank (byte : UInt8) : Bool :=
  byte == 32 || byte == 9 || byte == 10 || byte == 13

/-- White space, which may stand around every token. -/
structure Blank where
  text : ByteString
  blank : ∀ byte ∈ text, isBlank byte = true

def Blank.empty : Blank := ⟨[], List.forall_mem_nil _⟩

/-- The characters that stand for themselves in a literal. -/
def Unescaped (character : Char) : Prop :=
  32 ≤ character.toNat ∧ character.toNat ≠ 34 ∧ character.toNat ≠ 92

instance : DecidablePred Unescaped := fun _ => inferInstanceAs (Decidable (_ ∧ _ ∧ _))

inductive ShortEscape
  | quotationMark
  | reverseSolidus
  | solidus
  | backspace
  | formFeed
  | lineFeed
  | carriageReturn
  | tab
  deriving DecidableEq

namespace ShortEscape

/-- The byte behind the reverse solidus. -/
def letter : ShortEscape → UInt8
  | .quotationMark => 34
  | .reverseSolidus => 92
  | .solidus => 47
  | .backspace => 98
  | .formFeed => 102
  | .lineFeed => 110
  | .carriageReturn => 114
  | .tab => 116

/-- The character that the escape stands for. -/
def code : ShortEscape → UInt8
  | .quotationMark => 34
  | .reverseSolidus => 92
  | .solidus => 47
  | .backspace => 8
  | .formFeed => 12
  | .lineFeed => 10
  | .carriageReturn => 13
  | .tab => 9

end ShortEscape

def isHexDigit (byte : UInt8) : Bool :=
  isDigit byte || (65 ≤ byte && byte ≤ 70) || (97 ≤ byte && byte ≤ 102)

def hexDigitValue (byte : UInt8) : Nat :=
  if byte ≤ 57 then byte.toNat - 48
  else if byte ≤ 70 then byte.toNat - 55
  else byte.toNat - 87

/-- The four hexadecimal digits of an escaped code unit. -/
structure CodeUnit where
  digits : ByteString
  length_eq : digits.length = 4
  hexadecimal : ∀ digit ∈ digits, isHexDigit digit = true

def CodeUnit.value (unit : CodeUnit) : Nat :=
  unit.digits.foldl (fun value digit => 16 * value + hexDigitValue digit) 0

inductive Piece
  | plain (character : Char) (unescaped : Unescaped character)
  | short (escape : ShortEscape)
  | unicode (unit : CodeUnit)

/-- What stands between the quotation marks. -/
abbrev Literal := List Piece

def Piece.text : Piece → ByteString
  | .plain character _ => String.utf8EncodeChar character
  | .short escape => [reverseSolidus, escape.letter]
  | .unicode unit => reverseSolidus :: 117 :: unit.digits

def Literal.body (literal : Literal) : ByteString :=
  literal.flatMap Piece.text

theorem Literal.body_cons (piece : Piece) (literal : Literal) :
    Literal.body (piece :: literal) = piece.text ++ Literal.body literal :=
  List.flatMap_cons

def Literal.text (literal : Literal) : ByteString :=
  quotationMark :: (literal.body ++ [quotationMark])

def isHighSurrogate (value : Nat) : Bool := 0xD800 ≤ value && value < 0xDC00

def isLowSurrogate (value : Nat) : Bool := 0xDC00 ≤ value && value < 0xE000

/-- The character outside of the basic plane that two code units stand for. -/
def pairedCharacter (high low : Nat) : Char :=
  Char.ofNat (0x10000 + (high - 0xD800) * 0x400 + (low - 0xDC00))

/-- The characters that a literal denotes.  A surrogate that is not half of a pair
denotes none. -/
def Literal.characters : Literal → Option (List Char)
  | [] => some []
  | .plain character _ :: rest => (characters rest).map (character :: ·)
  | .short escape :: rest =>
      (characters rest).map (Char.ofNat escape.code.toNat :: ·)
  | .unicode unit :: rest =>
      if isHighSurrogate unit.value then
        match rest with
        | .unicode low :: rest =>
            if isLowSurrogate low.value then
              (characters rest).map (pairedCharacter unit.value low.value :: ·)
            else none
        | _ => none
      else if isLowSurrogate unit.value then none
      else (characters rest).map (Char.ofNat unit.value :: ·)

def utf8 (characters : List Char) : ByteString :=
  characters.flatMap String.utf8EncodeChar

/-- The bytes that a literal denotes. -/
def Literal.denoted (literal : Literal) : Option ByteString :=
  literal.characters.map utf8

def IsDigits (text : ByteString) : Prop :=
  text ≠ [] ∧ ∀ byte ∈ text, isDigit byte = true

inductive IsWhole : ByteString → Prop
  | zero : IsWhole [48]
  | positive (first : UInt8) (rest : ByteString) (nonzero : first ≠ 48)
      (digits : ∀ byte ∈ first :: rest, isDigit byte = true) :
      IsWhole (first :: rest)

inductive IsFraction : ByteString → Prop
  | none : IsFraction []
  | some (digits : ByteString) (isDigits : IsDigits digits) :
      IsFraction (46 :: digits)

inductive IsExponent : ByteString → Prop
  | none : IsExponent []
  | some (letter : UInt8) (sign digits : ByteString)
      (isLetter : letter = 101 ∨ letter = 69)
      (isSign : sign = [] ∨ sign = [43] ∨ sign = [45]) (isDigits : IsDigits digits) :
      IsExponent (letter :: (sign ++ digits))

/-- The values without structure that are no strings. -/
inductive IsScalar : ByteString → Prop
  | falseName : IsScalar (ascii "false")
  | nullName : IsScalar (ascii "null")
  | trueName : IsScalar (ascii "true")
  | number (minus whole fraction exponent : ByteString)
      (isMinus : minus = [] ∨ minus = [45]) (isWhole : IsWhole whole)
      (isFraction : IsFraction fraction) (isExponent : IsExponent exponent) :
      IsScalar (minus ++ (whole ++ (fraction ++ exponent)))

structure Element where
  before : Blank
  value : ByteString
  after : Blank

structure Member where
  before : Blank
  key : Literal
  afterKey : Blank
  beforeValue : Blank
  value : ByteString
  after : Blank

def Element.text (element : Element) : ByteString :=
  element.before.text ++ (element.value ++ element.after.text)

def Member.text (member : Member) : ByteString :=
  member.before.text ++ (member.key.text ++ (member.afterKey.text ++
    nameSeparator :: (member.beforeValue.text ++
      (member.value ++ member.after.text))))

/-- Items with separators between them. -/
def separated : List ByteString → ByteString
  | [] => []
  | [item] => item
  | item :: next :: rest => item ++ valueSeparator :: separated (next :: rest)

/-- What stands between two brackets: white space, if there are no items. -/
def listed (blank : Blank) (items : List ByteString) : ByteString :=
  if items = [] then blank.text else separated items

def arrayText (blank : Blank) (elements : List Element) : ByteString :=
  beginArray :: (listed blank (elements.map Element.text) ++ [endArray])

def objectText (blank : Blank) (members : List Member) : ByteString :=
  beginObject :: (listed blank (members.map Member.text) ++ [endObject])

inductive IsValue : ByteString → Prop
  | string (literal : Literal) : IsValue literal.text
  | scalar {text : ByteString} (isScalar : IsScalar text) : IsValue text
  | array (blank : Blank) (elements : List Element)
      (values : ∀ element ∈ elements, IsValue element.value) :
      IsValue (arrayText blank elements)
  | object (blank : Blank) (members : List Member)
      (values : ∀ member ∈ members, IsValue member.value) :
      IsValue (objectText blank members)

/-- A text that is an object. -/
structure Object where
  before : Blank
  blank : Blank
  members : List Member
  values : ∀ member ∈ members, IsValue member.value
  after : Blank

namespace Object

def inner (object : Object) : ByteString :=
  objectText object.blank object.members

def text (object : Object) : ByteString :=
  object.before.text ++ (object.inner ++ object.after.text)

/-- No key has an escape, and no two keys are the same. -/
structure PlainKeys (object : Object) : Prop where
  plain : ∀ member ∈ object.members, reverseSolidus ∉ member.key.body
  distinct : (object.members.map fun member => member.key.body).Nodup

end Object

theorem utf8EncodeChar_plain {character : Char} (unescaped : Unescaped character) :
    ∀ byte ∈ String.utf8EncodeChar character,
      byte ≠ quotationMark ∧ byte ≠ reverseSolidus := by
  obtain ⟨-, notMark, notSolidus⟩ := unescaped
  change character.val.toNat ≠ 34 at notMark
  change character.val.toNat ≠ 92 at notSolidus
  intro byte member
  rw [← UInt8.toNat_inj.ne, ← UInt8.toNat_inj.ne]
  change byte.toNat ≠ 34 ∧ byte.toNat ≠ 92
  unfold String.utf8EncodeChar at member
  dsimp only at member
  split_ifs at member with one two three
  all_goals
    simp only [List.mem_cons, List.not_mem_nil, or_false] at member
    rcases member with rfl | rfl | rfl | rfl <;> simp only [UInt8.toNat_ofNat'] <;> omega

/-- The bytes of numbers and names. -/
def isScalarByte (byte : UInt8) : Bool :=
  isDigit byte || byte == 43 || byte == 45 || byte == 46 || byte == 69 ||
    (97 ≤ byte && byte ≤ 122)

theorem isScalarByte_of_isDigit {byte : UInt8} (digit : isDigit byte = true) :
    isScalarByte byte = true := by
  simp [isScalarByte, digit]

namespace IsScalar

theorem whole_bytes {whole : ByteString} (isWhole : IsWhole whole) :
    ∀ byte ∈ whole, isScalarByte byte = true := by
  cases isWhole with
  | zero => decide +kernel
  | positive first rest nonzero digits =>
      exact fun byte member => isScalarByte_of_isDigit (digits byte member)

theorem fraction_bytes {fraction : ByteString} (isFraction : IsFraction fraction) :
    ∀ byte ∈ fraction, isScalarByte byte = true := by
  cases isFraction with
  | none => exact fun byte member => (List.not_mem_nil member).elim
  | some digits isDigits =>
      exact List.forall_mem_cons.mpr
        ⟨by decide, fun byte member => isScalarByte_of_isDigit (isDigits.2 byte member)⟩

theorem exponent_bytes {exponent : ByteString} (isExponent : IsExponent exponent) :
    ∀ byte ∈ exponent, isScalarByte byte = true := by
  cases isExponent with
  | none => exact fun byte member => (List.not_mem_nil member).elim
  | some letter sign digits isLetter isSign isDigits =>
      refine List.forall_mem_cons.mpr ⟨?_, List.forall_mem_append.mpr ⟨?_, ?_⟩⟩
      · rcases isLetter with rfl | rfl <;> decide
      · rcases isSign with rfl | rfl | rfl <;> decide +kernel
      · exact fun byte member => isScalarByte_of_isDigit (isDigits.2 byte member)

theorem bytes {text : ByteString} (isScalar : IsScalar text) :
    ∀ byte ∈ text, isScalarByte byte = true := by
  cases isScalar with
  | falseName => decide +kernel
  | nullName => decide +kernel
  | trueName => decide +kernel
  | number minus whole fraction exponent isMinus isWhole isFraction isExponent =>
      simp only [List.forall_mem_append]
      refine ⟨?_, whole_bytes isWhole, fraction_bytes isFraction,
        exponent_bytes isExponent⟩
      rcases isMinus with rfl | rfl <;> decide +kernel

theorem ne_nil {text : ByteString} (isScalar : IsScalar text) : text ≠ [] := by
  cases isScalar with
  | falseName => decide
  | nullName => decide
  | trueName => decide
  | number minus whole fraction exponent isMinus isWhole isFraction isExponent =>
      cases isWhole <;> simp

end IsScalar

theorem isSpace_of_isBlank {byte : UInt8} (blank : isBlank byte = true) :
    isSpace byte = true := by
  simp only [isBlank, Bool.or_eq_true, beq_iff_eq] at blank
  rcases blank with ((rfl | rfl) | rfl) | rfl <;> rfl

theorem not_isSpace_of_isScalarByte {byte : UInt8}
    (scalar : isScalarByte byte = true) : isSpace byte = false := by
  rw [Bool.eq_false_iff]
  intro space
  simp [isScalarByte, isSpace, isDigit, UInt8.le_iff_toNat_le,
    ← UInt8.toNat_inj] at scalar space
  omega

/-- The text neither begins nor ends with white space. -/
structure Tight (text : ByteString) : Prop where
  first : ∃ byte rest, text = byte :: rest ∧ isSpace byte = false
  last : ∃ front byte, text = front ++ [byte] ∧ isSpace byte = false

theorem Tight.not_isSpace {text : ByteString} (tight : Tight text) {byte : UInt8}
    (isEnd : text.head? = some byte ∨ text.getLast? = some byte) :
    isSpace byte = false := by
  rcases isEnd with isFirst | isLast
  · obtain ⟨first, rest, rfl, notSpace⟩ := tight.first
    cases isFirst
    exact notSpace
  · obtain ⟨front, last, rfl, notSpace⟩ := tight.last
    rw [List.getLast?_concat] at isLast
    cases isLast
    exact notSpace

theorem tight_between {first last : UInt8} (firstTight : isSpace first = false)
    (lastTight : isSpace last = false) (inner : ByteString) :
    Tight (first :: (inner ++ [last])) :=
  ⟨⟨first, inner ++ [last], rfl, firstTight⟩, ⟨first :: inner, last, rfl, lastTight⟩⟩

theorem IsScalar.tight {text : ByteString} (isScalar : IsScalar text) :
    Tight text where
  first := by
    obtain ⟨byte, rest, rfl⟩ := List.exists_cons_of_ne_nil isScalar.ne_nil
    exact ⟨byte, rest, rfl,
      not_isSpace_of_isScalarByte (isScalar.bytes byte List.mem_cons_self)⟩
  last := by
    refine ⟨text.dropLast, text.getLast isScalar.ne_nil,
      (List.dropLast_concat_getLast isScalar.ne_nil).symm, ?_⟩
    exact not_isSpace_of_isScalarByte (isScalar.bytes _ (List.getLast_mem _))

theorem IsValue.tight {text : ByteString} (isValue : IsValue text) : Tight text := by
  cases isValue with
  | string literal => exact tight_between (by decide) (by decide) _
  | scalar isScalar => exact isScalar.tight
  | array blank elements values => exact tight_between (by decide) (by decide) _
  | object blank members values => exact tight_between (by decide) (by decide) _

theorem Object.inner_tight (object : Object) : Tight object.inner :=
  tight_between (by decide) (by decide) _

/-- The text is in the basic character set, and nothing in it needs an escape. -/
def isPlain (text : String) : Bool :=
  text.toList.all fun character => decide (Unescaped character ∧ character.toNat < 128)

theorem isPlain_iff {text : String} :
    isPlain text = true ↔
      ∀ character ∈ text.toList, Unescaped character ∧ character.toNat < 128 := by
  simp [isPlain]

/-- The literal of a plain text. -/
def plainLiteral (text : String) (plain : isPlain text = true) : Literal :=
  text.toList.pmap Piece.plain fun character member =>
    (isPlain_iff.mp plain character member).1

theorem body_pmap_plain {text : List Char} (plain : ∀ character ∈ text, Unescaped character)
    (basic : ∀ character ∈ text, character.toNat < 128) :
    Literal.body (text.pmap Piece.plain plain) =
      text.map fun character => UInt8.ofNat character.toNat := by
  induction text with
  | nil => rfl
  | cons character text ih =>
      obtain ⟨isBasic, later⟩ := List.forall_mem_cons.mp basic
      have rest := ih (List.forall_mem_cons.mp plain).2 later
      have encoded : String.utf8EncodeChar character = [UInt8.ofNat character.toNat] := by
        have small : character.toNat ≤ 127 := Nat.le_of_lt_succ isBasic
        simp [String.utf8EncodeChar, small]
      rw [List.pmap, Literal.body_cons, Piece.text, encoded, List.map_cons]
      exact congrArg _ rest

theorem plainLiteral_body {text : String} (plain : isPlain text = true) :
    (plainLiteral text plain).body = ascii text :=
  body_pmap_plain _ fun character member => (isPlain_iff.mp plain character member).2

/-- A member whose key is a plain text, without white space. -/
def plainMember (key : String) (plain : isPlain key = true) (value : ByteString) : Member :=
  ⟨.empty, plainLiteral key plain, .empty, .empty, value, .empty⟩

theorem plainMember_text {key : String} (plain : isPlain key = true) (value : ByteString) :
    (plainMember key plain value).text =
      ascii "\"" ++ ascii key ++ ascii "\":" ++ value := by
  simp only [plainMember, Member.text, Literal.text, plainLiteral_body, Blank.empty]
  simp [ascii]

end JsonGrammar
