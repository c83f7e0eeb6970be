import Blocxxi.ByteText
import Mathlib.Data.List.DropRight

/-!
# Scanning JSON text

The texts of a node's answers are not parsed into a tree.  The value of a member
is found by scanning: strings are followed to their closing quote, other values
to the comma or the bracket that ends them, and the text in between is handed
on.
-/

namespace Blocxxi

namespace Bitcoin

open ByteText

namespace Json

abbrev quote : UInt8 := 34
abbrev comma : UInt8 := 44
abbrev colon : UInt8 := 58
abbrev backslash : UInt8 := 92
abbrev closingBrace : UInt8 := 125

def opens (byte : UInt8) : Bool := byte == 123 || byte == 91

def closes (byte : UInt8) : Bool := byte == closingBrace || byte == 93

end Json

open Json

def skipWhitespace (text : ByteString) (position : Nat) : Nat :=
  position + ((text.drop position).takeWhile isSpace).length

/-- The position behind the closing quote of a string. -/
def stringEnd : ByteString → Nat → Bool → Option Nat
  | [], _, _ => none
  | current :: rest, index, escaped =>
      if escaped then stringEnd rest (index + 1) false
      else if current = backslash then stringEnd rest (index + 1) true
      else if current = quote then some (index + 1)
      else stringEnd rest (index + 1) false

def consumeString (text : ByteString) (position : Nat) : Option Nat :=
  if text[position]? ≠ some quote then none
  else stringEnd (text.drop (position + 1)) (position + 1) false

/-- The position where a value that is no string ends: at a comma or a closing
bracket outside of it, behind its own closing bracket, or with the text. -/
def valueEnd : ByteString → Nat → Nat → Bool → Bool → Nat
  | [], index, _, _, _ => index
  | current :: rest, index, depth, inString, escaped =>
      if inString then
        if escaped then valueEnd rest (index + 1) depth true false
        else if current = backslash then valueEnd rest (index + 1) depth true true
        else if current = quote then valueEnd rest (index + 1) depth false false
        else valueEnd rest (index + 1) depth true false
      else if current = quote then valueEnd rest (index + 1) depth true escaped
      else if opens current then
        valueEnd rest (index + 1) (depth + 1) false escaped
      else if closes current then
        if depth = 0 then index
        else if depth = 1 then index + 1
        else valueEnd rest (index + 1) (depth - 1) false escaped
      else if depth = 0 ∧ current = comma then index
      else valueEnd rest (index + 1) depth false escaped

def consumeJsonValue (text : ByteString) (position : Nat) : Option Nat :=
  let position := skipWhitespace text position
  match text[position]? with
  | none => none
  | some first =>
      if first = quote then consumeString text position
      else some (valueEnd (text.drop position) position 0 false false)

def trim (text : ByteString) : ByteString :=
  (text.dropWhile isSpace).rdropWhile isSpace

/-- The text of a string literal without its escapes: of each escape, the
character behind the backslash stays. -/
def unescape : ByteString → Bool → ByteString
  | [], _ => []
  | current :: rest, escaped =>
      if escaped then current :: unescape rest false
      else if current = backslash then unescape rest true
      else current :: unescape rest false

def parseString (raw : ByteString) : Option ByteString :=
  let raw := trim raw
  if raw.length < 2 ∨ raw.head? ≠ some quote ∨ raw.getLast? ≠ some quote then none
  else some (unescape (raw.drop 1).dropLast false)

def parseInteger (raw : ByteString) : Option UInt64 :=
  (fromCharsUnsigned (trim raw)).map UInt64.ofNat

def parseBool (raw : ByteString) : Option Bool :=
  let raw := trim raw
  if raw = ascii "true" then some true
  else if raw = ascii "false" then some false
  else none

/-- The text between two positions. -/
def slice (text : ByteString) (start stop : Nat) : ByteString :=
  (text.drop start).take (stop - start)

/-- The member that starts at a position: its key, its value, and the position
behind it and the comma that may follow. -/
def readMember (text : ByteString) (position : Nat) :
    Option (Option ByteString × ByteString × Nat) :=
  match consumeString text position with
  | none => none
  | some keyEnd =>
      let key := parseString (slice text position keyEnd)
      let position := skipWhitespace text keyEnd
      if text[position]? ≠ some colon then none
      else
        let position := skipWhitespace text (position + 1)
        match consumeJsonValue text position with
        | none => none
        | some stop =>
            let next := skipWhitespace text stop
            some (key, trim (slice text position stop),
              if text[next]? = some comma then next + 1 else next)

/-- There is no further member at a position. -/
def AtEnd (text : ByteString) (position : Nat) : Prop :=
  text[position]? = none ∨ text[position]? = some closingBrace

instance (text : ByteString) (position : Nat) : Decidable (AtEnd text position) :=
  inferInstanceAs (Decidable (_ ∨ _))

/-- The loop over the members of an object, up to the one with the key.  Every
pass moves the position, so that there are enough of them. -/
def findMember (object key : ByteString) : Nat → Nat → Option ByteString
  | 0, _ => none
  | passes + 1, position =>
      if object.length ≤ position + 1 then none
      else
        let position := skipWhitespace object position
        if AtEnd object position then none
        else
          match readMember object position with
          | none => none
          | some (memberKey, value, next) =>
              if memberKey = some key then some value
              else findMember object key passes next

def isObject (text : ByteString) : Bool :=
  2 ≤ text.length && text.head? == some 123 && text.getLast? == some closingBrace

def findObjectValue (object key : ByteString) : Option ByteString :=
  let object := trim object
  if ¬ isObject object then none
  else findMember object key object.length 1

def extractResultValue (responseJson : ByteString) : Option ByteString :=
  findObjectValue responseJson (ascii "result")

/-- The result in an answer, parsed. -/
def parseResult {Result : Type} (responseJson : ByteString)
    (parser : ByteString → Option Result) : Option Result :=
  (extractResultValue responseJson).bind parser

theorem trim_of_ends {text : ByteString}
    (noSpace : ∀ byte, text.head? = some byte ∨ text.getLast? = some byte →
      isSpace byte = false) :
    trim text = text := by
  have front : text.dropWhile isSpace = text := by
    cases text with
    | nil => rfl
    | cons first rest =>
        exact List.dropWhile_cons_of_neg (by simp [noSpace first (.inl rfl)])
  have back : text.rdropWhile isSpace = text := by
    rw [List.rdropWhile_eq_self_iff]
    intro nonempty
    rw [noSpace _ (.inr (List.getLast?_eq_some_getLast nonempty))]
    exact Bool.false_ne_true
  rw [trim, front, back]

theorem unescape_of_notMem {text : ByteString} (plain : backslash ∉ text) :
    unescape text false = text := by
  induction text with
  | nil => rfl
  | cons current rest ih =>
      rw [List.mem_cons, not_or] at plain
      rw [unescape, if_neg (by simp), if_neg (Ne.symm plain.1), ih plain.2]

/-- A string in quotation marks is read without its escapes. -/
theorem parseString_between (body : ByteString) :
    parseString (quote :: (body ++ [quote])) = some (unescape body false) := by
  have last : (quote :: (body ++ [quote])).getLast? = some quote := by
    rw [← List.cons_append, List.getLast?_concat]
  have trimmed : trim (quote :: (body ++ [quote])) = quote :: (body ++ [quote]) := by
    apply trim_of_ends
    intro byte isEnd
    rw [last, List.head?_cons, or_self] at isEnd
    cases isEnd
    rfl
  have inside : ((quote :: (body ++ [quote])).drop 1).dropLast = body := by simp
  have ends : ¬ ((quote :: (body ++ [quote])).length < 2 ∨
      (quote :: (body ++ [quote])).head? ≠ some quote ∨
      (quote :: (body ++ [quote])).getLast? ≠ some quote) := by
    rw [last]
    simp
  unfold parseString
  rw [trimmed]
  dsimp only
  rw [if_neg ends, inside]

theorem le_skipWhitespace (text : ByteString) (position : Nat) :
    position ≤ skipWhitespace text position :=
  Nat.le_add_right _ _

theorem lt_stringEnd {text : ByteString} {index stop : Nat} {escaped : Bool}
    (ends : stringEnd text index escaped = some stop) : index < stop := by
  induction text generalizing index escaped with
  | nil => cases ends
  | cons current rest ih =>
      unfold stringEnd at ends
      split at ends
      · exact Nat.lt_of_succ_lt (ih ends)
      split at ends
      · exact Nat.lt_of_succ_lt (ih ends)
      split at ends
      · cases ends
        exact Nat.lt_succ_self index
      · exact Nat.lt_of_succ_lt (ih ends)

theorem lt_consumeString {text : ByteString} {position stop : Nat}
    (consumed : consumeString text position = some stop) : position < stop := by
  unfold consumeString at consumed
  split at consumed
  · cases consumed
  · exact Nat.lt_of_succ_lt (lt_stringEnd consumed)

theorem le_valueEnd (text : ByteString) (index depth : Nat)
    (inString escaped : Bool) :
    index ≤ valueEnd text index depth inString escaped := by
  induction text generalizing index depth inString escaped with
  | nil => exact Nat.le_refl index
  | cons current rest ih =>
      have further (depth : Nat) (inString escaped : Bool) :
          index ≤ valueEnd rest (index + 1) depth inString escaped :=
        Nat.le_of_succ_le (ih (index + 1) depth inString escaped)
      unfold valueEnd
      repeat' split
      all_goals first | exact further _ _ _ | omega

theorem le_consumeJsonValue {text : ByteString} {position stop : Nat}
    (consumed : consumeJsonValue text position = some stop) : position ≤ stop := by
  have start := le_skipWhitespace text position
  unfold consumeJsonValue at consumed
  dsimp only at consumed
  split at consumed
  · cases consumed
  split at consumed
  · have behind := lt_consumeString consumed
    omega
  · cases consumed
    exact start.trans (le_valueEnd _ _ _ _ _)

theorem lt_readMember {text value : ByteString} {key : Option ByteString}
    {position next : Nat} (read : readMember text position = some (key, value, next)) :
    position < next := by
  unfold readMember at read
  split at read
  · cases read
  next keyEnd consumed =>
  have keyStart := lt_consumeString consumed
  have afterKey := le_skipWhitespace text keyEnd
  dsimp only at read
  split at read
  · cases read
  have valueStart := le_skipWhitespace text (skipWhitespace text keyEnd + 1)
  split at read
  · cases read
  next stop consumedValue =>
  have valueEnd := le_consumeJsonValue consumedValue
  have afterValue := le_skipWhitespace text stop
  cases read
  split <;> omega

end Bitcoin

end Blocxxi
