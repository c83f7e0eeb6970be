import Blocxxi.CoreRpcAdapter
import Blocxxi.JsonGrammar
import Mathlib.Data.List.Find

/-!
# Members of well-formed objects

The scanner keeps no tree: it counts brackets and follows strings.  On the texts
of the grammar this is enough.  Text inside of brackets is passed over at its
depth, by induction on the derivation of a value, so a value ends where the
grammar says, and the loops over an object stop at its members, one after the
other.
-/

namespace Blocxxi

namespace Bitcoin

open ByteText Json JsonGrammar

theorem stringEnd_inert {text : ByteString}
    (inert : ∀ byte ∈ text, byte ≠ quote ∧ byte ≠ backslash) (rest : ByteString)
    (index : Nat) :
    stringEnd (text ++ rest) index false =
      stringEnd rest (index + text.length) false := by
  induction text generalizing index with
  | nil => rfl
  | cons byte text induction =>
      obtain ⟨⟨notQuote, notBackslash⟩, inert⟩ := List.forall_mem_cons.mp inert
      rw [List.cons_append, stringEnd, if_neg Bool.false_ne_true, if_neg notBackslash,
        if_neg notQuote, induction inert, List.length_cons]
      congr 1
      omega

theorem hexDigits_inert (unit : CodeUnit) :
    ∀ byte ∈ unit.digits, byte ≠ quote ∧ byte ≠ backslash := by
  intro byte member
  have hexadecimal := unit.hexadecimal byte member
  constructor <;> rintro rfl <;> exact absurd hexadecimal (by decide)

theorem stringEnd_piece (piece : Piece) (rest : ByteString) (index : Nat) :
    stringEnd (piece.text ++ rest) index false =
      stringEnd rest (index + piece.text.length) false := by
  cases piece with
  | plain character unescaped =>
      exact stringEnd_inert (utf8EncodeChar_plain unescaped) rest index
  | short escape => rfl
  | unicode unit =>
      have digits := stringEnd_inert (hexDigits_inert unit) rest (index + 1 + 1)
      rw [Nat.add_assoc index 1 1, Nat.add_assoc, Nat.add_comm 2] at digits
      exact digits

theorem stringEnd_body (literal : Literal) (rest : ByteString) (index : Nat) :
    stringEnd (literal.body ++ quote :: rest) index false =
      some (index + literal.body.length + 1) := by
  induction literal generalizing index with
  | nil => rfl
  | cons piece literal induction =>
      rw [Literal.body_cons, List.append_assoc, stringEnd_piece, induction, List.length_append]
      congr 2
      omega

/-- Inside of a string the scanner of values does what the scanner of strings
does. -/
theorem valueEnd_inString (text : ByteString) (index depth : Nat) (escaped : Bool) :
    valueEnd text index depth true escaped =
      match stringEnd text index escaped with
      | some stop => valueEnd (text.drop (stop - index)) stop depth false false
      | none => index + text.length := by
  induction text generalizing index escaped with
  | nil => rfl
  | cons current rest induction =>
      have further (escaped : Bool) :
          valueEnd rest (index + 1) depth true escaped =
            match stringEnd rest (index + 1) escaped with
            | some stop =>
                valueEnd ((current :: rest).drop (stop - index)) stop depth false false
            | none => index + (current :: rest).length := by
        rw [induction]
        cases ends : stringEnd rest (index + 1) escaped with
        | none => exact Nat.add_right_comm index 1 rest.length
        | some stop =>
            have behind := lt_stringEnd ends
            dsimp only
            rw [show stop - index = (stop - (index + 1)) + 1 by omega,
              List.drop_succ_cons]
      rw [valueEnd, stringEnd, if_pos rfl]
      split
      · exact further false
      split
      · exact further true
      split
      · dsimp only
        rw [Nat.add_sub_cancel_left]
        rfl
      · exact further false

theorem valueEnd_literal (literal : Literal) (rest : ByteString) (index depth : Nat) :
    valueEnd (literal.text ++ rest) index depth false false =
      valueEnd rest (index + literal.text.length) depth false false := by
  have ends := stringEnd_body literal rest (index + 1)
  have opened : valueEnd (literal.text ++ rest) index depth false false =
      valueEnd (literal.body ++ quote :: rest) (index + 1) depth true false := by
    rw [Literal.text, List.cons_append, List.append_assoc]
    rfl
  have length : literal.text.length = literal.body.length + 2 := by
    simp [Literal.text]
  rw [opened, valueEnd_inString, ends]
  dsimp only
  rw [show index + 1 + literal.body.length + 1 - (index + 1) =
      literal.body.length + 1 by omega, ← List.drop_drop, List.drop_left,
    List.drop_one, List.tail_cons, length]
  congr 1
  omega

theorem consumeString_literal {text rest : ByteString} {position : Nat}
    {literal : Literal} (stands : text.drop position = literal.text ++ rest) :
    consumeString text position = some (position + literal.text.length) := by
  have first : text[position]? = some quote := by
    rw [← List.head?_drop, stands]
    rfl
  have behind : text.drop (position + 1) = literal.body ++ quote :: rest := by
    rw [← List.drop_drop, stands, Literal.text, List.cons_append, List.drop_one,
      List.tail_cons, List.append_assoc]
    rfl
  unfold consumeString
  rw [if_neg (not_not.mpr first), behind, stringEnd_body]
  simp only [Literal.text, List.length_cons, List.length_append, List.length_nil]
  congr 1
  omega

/-- The bytes that the scanner passes over at any depth. -/
def Inert (byte : UInt8) : Prop :=
  byte ≠ quote ∧ opens byte = false ∧ closes byte = false ∧ byte ≠ comma

theorem valueEnd_inert {text : ByteString} (inert : ∀ byte ∈ text, Inert byte)
    (rest : ByteString) (index depth : Nat) :
    valueEnd (text ++ rest) index depth false false =
      valueEnd rest (index + text.length) depth false false := by
  induction text generalizing index with
  | nil => rfl
  | cons byte text induction =>
      obtain ⟨⟨notQuote, notOpening, notClosing, notComma⟩, inert⟩ :=
        List.forall_mem_cons.mp inert
      rw [List.cons_append, valueEnd, if_neg Bool.false_ne_true, if_neg notQuote,
        notOpening, notClosing, if_neg Bool.false_ne_true, if_neg Bool.false_ne_true,
        if_neg (fun both => notComma both.2), induction inert, List.length_cons]
      congr 1
      omega

/-- Inside of brackets the scanner passes over the text. -/
def Nested (text : ByteString) : Prop :=
  ∀ rest index depth, 0 < depth →
    valueEnd (text ++ rest) index depth false false =
      valueEnd rest (index + text.length) depth false false

theorem nested_inert {text : ByteString} (inert : ∀ byte ∈ text, Inert byte) :
    Nested text :=
  fun rest index depth _ => valueEnd_inert inert rest index depth

theorem nested_literal (literal : Literal) : Nested literal.text :=
  fun rest index depth _ => valueEnd_literal literal rest index depth

theorem nested_append {first second : ByteString} (nestedFirst : Nested first)
    (nestedSecond : Nested second) : Nested (first ++ second) := by
  intro rest index depth positive
  rw [List.append_assoc, nestedFirst _ _ _ positive, nestedSecond _ _ _ positive,
    List.length_append, Nat.add_assoc]

theorem nested_comma : Nested [comma] := by
  intro rest index depth positive
  rw [List.singleton_append, valueEnd, if_neg Bool.false_ne_true, if_neg (by decide),
    if_neg (by decide), if_neg (by decide), if_neg (by omega)]
  rfl

theorem valueEnd_opens {first : UInt8} (opening : opens first = true)
    (notQuote : first ≠ quote) (rest : ByteString) (index depth : Nat) :
    valueEnd (first :: rest) index depth false false =
      valueEnd rest (index + 1) (depth + 1) false false := by
  rw [valueEnd, if_neg Bool.false_ne_true, if_neg notQuote, if_pos opening]

theorem valueEnd_closes {last : UInt8} (closing : closes last = true)
    (notOpening : opens last = false) (notQuote : last ≠ quote) (rest : ByteString)
    (index depth : Nat) :
    valueEnd (last :: rest) index (depth + 1) false false =
      if depth = 0 then index + 1
      else valueEnd rest (index + 1) depth false false := by
  rw [valueEnd, if_neg Bool.false_ne_true, if_neg notQuote, notOpening,
    if_neg Bool.false_ne_true, if_pos closing, if_neg (Nat.succ_ne_zero depth)]
  simp

/-- A pair of brackets. -/
structure Brackets (first last : UInt8) : Prop where
  opening : opens first = true
  firstNotQuote : first ≠ quote
  closing : closes last = true
  notOpening : opens last = false
  lastNotQuote : last ≠ quote

theorem brackets_array : Brackets beginArray endArray := by
  constructor <;> decide

theorem brackets_object : Brackets beginObject endObject := by
  constructor <;> decide

theorem nested_brackets {first last : UInt8} (brackets : Brackets first last)
    {inner : ByteString} (nested : Nested inner) :
    Nested (first :: (inner ++ [last])) := by
  intro rest index depth positive
  rw [List.cons_append, List.append_assoc,
    valueEnd_opens brackets.opening brackets.firstNotQuote,
    nested _ _ _ (Nat.succ_pos depth), List.singleton_append,
    valueEnd_closes brackets.closing brackets.notOpening brackets.lastNotQuote,
    if_neg (by omega)]
  congr 1
  simp only [List.length_cons, List.length_append, List.length_nil]
  omega

/-- Outside of all others the brackets end the value. -/
theorem valueEnd_brackets {first last : UInt8} (brackets : Brackets first last)
    {inner : ByteString} (nested : Nested inner) (rest : ByteString) (index : Nat) :
    valueEnd (first :: (inner ++ [last]) ++ rest) index 0 false false =
      index + (first :: (inner ++ [last])).length := by
  rw [List.cons_append, List.append_assoc,
    valueEnd_opens brackets.opening brackets.firstNotQuote,
    nested _ _ _ Nat.one_pos, List.singleton_append,
    valueEnd_closes brackets.closing brackets.notOpening brackets.lastNotQuote,
    if_pos rfl]
  simp only [List.length_cons, List.length_append, List.length_nil]
  omega

theorem nested_separated {items : List ByteString}
    (nested : ∀ item ∈ items, Nested item) : Nested (separated items) := by
  induction items with
  | nil => exact fun _ _ _ _ => rfl
  | cons item rest induction =>
      obtain ⟨nestedItem, nestedRest⟩ := List.forall_mem_cons.mp nested
      cases rest with
      | nil => exact nestedItem
      | cons next rest =>
          have behind := nested_append nested_comma (induction nestedRest)
          exact nested_append nestedItem behind

theorem inert_of_isBlank {byte : UInt8} (blank : isBlank byte = true) :
    Inert byte := by
  simp only [isBlank, Bool.or_eq_true, beq_iff_eq] at blank
  rcases blank with ((rfl | rfl) | rfl) | rfl <;>
    exact ⟨by decide, by decide, by decide, by decide⟩

theorem inert_of_isScalarByte {byte : UInt8} (scalar : isScalarByte byte = true) :
    Inert byte := by
  refine ⟨?_, ?_, ?_, ?_⟩
  · rintro rfl
    exact absurd scalar (by decide)
  · rw [Bool.eq_false_iff]
    intro opening
    simp only [opens, Bool.or_eq_true, beq_iff_eq] at opening
    rcases opening with rfl | rfl <;> exact absurd scalar (by decide)
  · rw [Bool.eq_false_iff]
    intro closing
    simp only [closes, Bool.or_eq_true, beq_iff_eq] at closing
    rcases closing with rfl | rfl <;> exact absurd scalar (by decide)
  · rintro rfl
    exact absurd scalar (by decide)

theorem nested_blank (blank : Blank) : Nested blank.text :=
  nested_inert fun byte member => inert_of_isBlank (blank.blank byte member)

theorem nested_listed (blank : Blank) {items : List ByteString}
    (nested : ∀ item ∈ items, Nested item) : Nested (listed blank items) := by
  unfold listed
  split
  · exact nested_blank blank
  · exact nested_separated nested

theorem nested_element {element : Element} (nested : Nested element.value) :
    Nested element.text :=
  nested_append (nested_blank _) (nested_append nested (nested_blank _))

theorem nested_member {member : Member} (nested : Nested member.value) :
    Nested member.text := by
  have colonInert : ∀ byte ∈ [colon], Inert byte :=
    List.forall_mem_singleton.mpr ⟨by decide, by decide, by decide, by decide⟩
  refine nested_append (nested_blank _) (nested_append (nested_literal _)
    (nested_append (nested_blank _) ?_))
  exact nested_append (nested_inert colonInert)
    (nested_append (nested_blank _) (nested_append nested (nested_blank _)))

/-- Every value is passed over, however deep it goes. -/
theorem nested_value {value : ByteString} (isValue : IsValue value) :
    Nested value := by
  induction isValue with
  | string literal => exact nested_literal literal
  | scalar isScalar =>
      exact nested_inert fun byte member =>
        inert_of_isScalarByte (isScalar.bytes byte member)
  | array blank elements values induction =>
      exact nested_brackets brackets_array (nested_listed blank
        (List.forall_mem_map.mpr fun element member =>
          nested_element (induction element member)))
  | object blank members values induction =>
      exact nested_brackets brackets_object (nested_listed blank
        (List.forall_mem_map.mpr fun member isMember =>
          nested_member (induction member isMember)))

theorem nested_elements {elements : List Element}
    (values : ∀ element ∈ elements, IsValue element.value) (blank : Blank) :
    Nested (listed blank (elements.map Element.text)) :=
  nested_listed blank (List.forall_mem_map.mpr fun element member =>
    nested_element (nested_value (values element member)))

theorem nested_members {members : List Member}
    (values : ∀ member ∈ members, IsValue member.value) (blank : Blank) :
    Nested (listed blank (members.map Member.text)) :=
  nested_listed blank (List.forall_mem_map.mpr fun member isMember =>
    nested_member (nested_value (values member isMember)))

theorem drop_behind {text part rest : ByteString} {position : Nat}
    (stands : text.drop position = part ++ rest) :
    text.drop (position + part.length) = rest := by
  rw [← List.drop_drop, stands, List.drop_left]

theorem drop_behind_byte {text rest : ByteString} {position : Nat} {byte : UInt8}
    (stands : text.drop position = byte :: rest) : text.drop (position + 1) = rest := by
  rw [← List.drop_drop, stands]
  rfl

theorem getElem?_of_stands {text rest : ByteString} {position : Nat} {first : UInt8}
    (stands : text.drop position = first :: rest) : text[position]? = some first := by
  rw [← List.head?_drop, stands]
  rfl

theorem blank_isSpace (blank : Blank) : ∀ byte ∈ blank.text, isSpace byte = true :=
  fun byte member => isSpace_of_isBlank (blank.blank byte member)

theorem skipWhitespace_blank {text rest : ByteString} {position : Nat} {blank : Blank}
    {first : UInt8} (stands : text.drop position = blank.text ++ first :: rest)
    (notSpace : isSpace first = false) :
    skipWhitespace text position = position + blank.text.length := by
  rw [skipWhitespace, stands, List.takeWhile_append_of_pos (blank_isSpace blank),
    List.takeWhile_cons_of_neg (by simp [notSpace]), List.append_nil]

theorem skipWhitespace_tight {text rest : ByteString} {position : Nat} {first : UInt8}
    (stands : text.drop position = first :: rest) (notSpace : isSpace first = false) :
    skipWhitespace text position = position := by
  rw [skipWhitespace, stands, List.takeWhile_cons_of_neg (by simp [notSpace])]
  rfl

theorem slice_part {text part rest : ByteString} {position : Nat}
    (stands : text.drop position = part ++ rest) :
    slice text position (position + part.length) = part := by
  rw [slice, stands, Nat.add_sub_cancel_left, List.take_left]

theorem trim_tight {text before after : ByteString} (tight : Tight text)
    (spaceBefore : ∀ byte ∈ before, isSpace byte = true)
    (spaceAfter : ∀ byte ∈ after, isSpace byte = true) :
    trim (before ++ (text ++ after)) = text := by
  obtain ⟨first, rest, startsWith, firstTight⟩ := tight.first
  obtain ⟨front, last, endsWith, lastTight⟩ := tight.last
  have leading : (before ++ (text ++ after)).dropWhile isSpace = text ++ after := by
    rw [List.dropWhile_append_of_pos spaceBefore, startsWith, List.cons_append,
      List.dropWhile_cons_of_neg (by simp [firstTight])]
  have reversed : (text ++ after).reverse = after.reverse ++ (last :: front.reverse) := by
    rw [endsWith]
    simp
  have isSpaceAfter : ∀ byte ∈ after.reverse, isSpace byte = true :=
    fun byte member => spaceAfter byte (List.mem_reverse.mp member)
  rw [trim, leading, List.rdropWhile, reversed,
    List.dropWhile_append_of_pos isSpaceAfter,
    List.dropWhile_cons_of_neg (by simp [lastTight]), endsWith]
  simp

/-- What stands behind a member. -/
def Delimits (byte : UInt8) : Prop := byte = comma ∨ byte = closingBrace

theorem Delimits.not_isSpace {byte : UInt8} (delimits : Delimits byte) :
    isSpace byte = false := by
  rcases delimits with rfl | rfl <;> rfl

theorem valueEnd_delimits {byte : UInt8} (delimits : Delimits byte)
    (rest : ByteString) (index : Nat) :
    valueEnd (byte :: rest) index 0 false false = index := by
  rw [valueEnd, if_neg Bool.false_ne_true]
  rcases delimits with rfl | rfl
  · rw [if_neg (by decide), if_neg (by decide), if_neg (by decide), if_pos ⟨rfl, rfl⟩]
  · rw [if_neg (by decide), if_neg (by decide), if_pos (by decide), if_pos rfl]

theorem valueEnd_scalar {value : ByteString} (isScalar : IsScalar value)
    {after : Blank} {delimiter : UInt8} (delimits : Delimits delimiter)
    (rest : ByteString) (index : Nat) :
    valueEnd (value ++ (after.text ++ delimiter :: rest)) index 0 false false =
      index + (value ++ after.text).length := by
  have inert : ∀ byte ∈ value ++ after.text, Inert byte :=
    List.forall_mem_append.mpr
      ⟨fun byte member => inert_of_isScalarByte (isScalar.bytes byte member),
        fun byte member => inert_of_isBlank (after.blank byte member)⟩
  rw [← List.append_assoc, valueEnd_inert inert, valueEnd_delimits delimits]

/-- A value ends behind its last byte or, if it has neither quotes nor brackets,
behind the white space that follows. -/
theorem consumeJsonValue_value {text value rest : ByteString} {position : Nat}
    {after : Blank} {delimiter : UInt8} (delimits : Delimits delimiter)
    (isValue : IsValue value)
    (stands : text.drop position = value ++ (after.text ++ delimiter :: rest)) :
    ∃ trailing, (trailing = [] ∨ trailing = after.text) ∧
      consumeJsonValue text position =
        some (position + (value ++ trailing).length) := by
  obtain ⟨first, behind, startsWith, notSpace⟩ := isValue.tight.first
  have standsFirst : text.drop position =
      first :: (behind ++ (after.text ++ delimiter :: rest)) := by
    rw [stands, startsWith, List.cons_append]
  have unmoved : skipWhitespace text position = position :=
    skipWhitespace_tight standsFirst notSpace
  unfold consumeJsonValue
  rw [unmoved]
  simp only [getElem?_of_stands standsFirst]
  cases isValue with
  | string literal =>
      have isQuote : quote = first := (List.cons.inj startsWith).1
      rw [if_pos isQuote.symm, consumeString_literal stands]
      exact ⟨[], .inl rfl, by rw [List.append_nil]⟩
  | scalar isScalar =>
      have notQuote : first ≠ quote :=
        (inert_of_isScalarByte (isScalar.bytes first (by simp [startsWith]))).1
      rw [if_neg notQuote, stands, valueEnd_scalar isScalar delimits]
      exact ⟨after.text, .inr rfl, rfl⟩
  | array blank elements values =>
      have isBracket : beginArray = first := (List.cons.inj startsWith).1
      rw [if_neg (isBracket ▸ brackets_array.firstNotQuote), stands, arrayText,
        valueEnd_brackets brackets_array (nested_elements values blank)]
      exact ⟨[], .inl rfl, by rw [List.append_nil]⟩
  | object blank members values =>
      have isBracket : beginObject = first := (List.cons.inj startsWith).1
      rw [if_neg (isBracket ▸ brackets_object.firstNotQuote), stands, objectText,
        valueEnd_brackets brackets_object (nested_members values blank)]
      exact ⟨[], .inl rfl, by rw [List.append_nil]⟩

/-- The text of a value is cut out of the text around it. -/
theorem value_extracted {text value rest : ByteString} {position : Nat}
    {after : Blank} {delimiter : UInt8} (delimits : Delimits delimiter)
    (isValue : IsValue value)
    (stands : text.drop position = value ++ (after.text ++ delimiter :: rest)) :
    ∃ stop, consumeJsonValue text position = some stop ∧
      trim (slice text position stop) = value ∧
      skipWhitespace text stop = position + value.length + after.text.length := by
  obtain ⟨trailing, isTrailing, consumed⟩ :=
    consumeJsonValue_value delimits isValue stands
  refine ⟨_, consumed, ?_⟩
  have standsAfter := drop_behind stands
  rcases isTrailing with rfl | rfl
  · rw [List.append_nil, slice_part stands,
      skipWhitespace_blank standsAfter delimits.not_isSpace]
    refine ⟨trim_of_ends fun byte isEnd => ?_, rfl⟩
    exact isValue.tight.not_isSpace isEnd
  · rw [← List.append_assoc] at stands
    have standsDelimiter := drop_behind stands
    rw [slice_part stands, skipWhitespace_tight standsDelimiter delimits.not_isSpace,
      List.length_append, ← Nat.add_assoc]
    refine ⟨?_, rfl⟩
    exact trim_tight isValue.tight (List.forall_mem_nil _) (blank_isSpace after)

/-- A member is read as its key and its value, up to what stands behind it. -/
theorem readMember_member {text rest : ByteString} {position : Nat} {member : Member}
    {delimiter : UInt8} (delimits : Delimits delimiter)
    (isValue : IsValue member.value)
    (stands : text.drop position = member.text ++ delimiter :: rest) :
    skipWhitespace text position = position + member.before.text.length ∧
      ¬ AtEnd text (position + member.before.text.length) ∧
      readMember text (position + member.before.text.length) =
        some (parseString member.key.text, member.value,
          position + member.text.length + if delimiter = comma then 1 else 0) := by
  have standsBehind := drop_behind stands
  have length : member.text.length = member.before.text.length +
      (member.key.text.length + (member.afterKey.text.length +
        (member.beforeValue.text.length +
          (member.value.length + member.after.text.length) + 1))) := by
    simp only [Member.text, List.length_append, List.length_cons]
  simp only [Member.text, List.append_assoc, List.cons_append] at stands
  have standsKey := drop_behind stands
  have standsAfterKey := drop_behind standsKey
  have standsColon := drop_behind standsAfterKey
  have standsBlank := drop_behind_byte standsColon
  have standsValue := drop_behind standsBlank
  obtain ⟨first, behind, startsWith, notSpace⟩ := isValue.tight.first
  have skipAfterKey := skipWhitespace_blank standsAfterKey (by decide)
  have standsFirst := standsBlank
  rw [startsWith, List.cons_append] at standsFirst
  have skipBeforeValue := skipWhitespace_blank standsFirst notSpace
  obtain ⟨stop, consumed, trimmed, skipAfter⟩ :=
    value_extracted delimits isValue standsValue
  have isNext : skipWhitespace text stop = position + member.text.length := by
    rw [skipAfter, length]
    omega
  refine ⟨skipWhitespace_blank stands (by decide), ?_, ?_⟩
  · rw [AtEnd, getElem?_of_stands standsKey]
    exact not_or.mpr ⟨Option.some_ne_none _, by decide⟩
  · unfold readMember
    rw [consumeString_literal standsKey]
    simp only [skipAfterKey, getElem?_of_stands standsColon, ne_eq, not_true_eq_false,
      if_false, skipBeforeValue, consumed, trimmed, isNext, slice_part standsKey,
      getElem?_of_stands standsBehind, Option.some.injEq]
    split <;> rfl

/-- The rest of the members, and the bracket behind them. -/
def MembersAt (text : ByteString) (position : Nat) (members : List Member) : Prop :=
  text.drop position = separated (members.map Member.text) ++ [closingBrace]

theorem MembersAt.length_eq {text : ByteString} {position : Nat}
    {members : List Member} (stand : MembersAt text position members) :
    text.length = position + (separated (members.map Member.text)).length + 1 := by
  have behind := congrArg List.length stand
  rw [List.length_drop, List.length_append, List.length_singleton] at behind
  omega

/-- Nothing but the bracket is left behind the last member. -/
theorem MembersAt.ended {text : ByteString} {position : Nat}
    (stand : MembersAt text position []) : text.length ≤ position + 1 :=
  stand.length_eq.le

/-- The members behind the first one stand where it is read up to. -/
theorem MembersAt.readMember {text : ByteString} {position : Nat} {member : Member}
    {members : List Member} (isValue : IsValue member.value)
    (stand : MembersAt text position (member :: members)) :
    ∃ next, position < next ∧ MembersAt text next members ∧
      ¬ text.length ≤ position + 1 ∧ ¬ AtEnd text (skipWhitespace text position) ∧
      readMember text (skipWhitespace text position) =
        some (parseString member.key.text, member.value, next) := by
  have length := stand.length_eq
  have wide : 2 ≤ member.text.length := by
    simp only [Member.text, Literal.text, List.length_append, List.length_cons]
    omega
  cases members with
  | nil =>
      have stands : text.drop position = member.text ++ closingBrace :: [] := stand
      obtain ⟨skipped, further, read⟩ := readMember_member (.inr rfl) isValue stands
      rw [if_neg (by decide)] at read
      rw [skipped]
      change text.length = position + member.text.length + 1 at length
      exact ⟨_, by omega, drop_behind stands, by omega, further, read⟩
  | cons second members =>
      have stands : text.drop position = member.text ++
          comma :: (separated ((second :: members).map Member.text) ++
            [closingBrace]) := by
        unfold MembersAt at stand
        rw [stand, List.map_cons, List.map_cons, separated, List.append_assoc]
        rfl
      obtain ⟨skipped, further, read⟩ := readMember_member (.inl rfl) isValue stands
      rw [if_pos rfl] at read
      rw [skipped]
      rw [List.map_cons, List.map_cons, separated, List.length_append,
        List.length_cons] at length
      exact ⟨_, by omega, drop_behind_byte (drop_behind stands), by omega, further, read⟩

theorem findMember_members {text key : ByteString} {passes position : Nat}
    {members : List Member} (values : ∀ member ∈ members, IsValue member.value)
    (stand : MembersAt text position members)
    (enough : text.length ≤ passes + position) :
    findMember text key passes position =
      (members.find? fun member => parseString member.key.text = some key).map
        Member.value := by
  induction members generalizing passes position with
  | nil =>
      cases passes with
      | zero => rfl
      | succ passes => rw [findMember, if_pos stand.ended]; rfl
  | cons member members induction =>
      obtain ⟨isValue, values⟩ := List.forall_mem_cons.mp values
      obtain ⟨next, moved, standRest, more, further, read⟩ :=
        stand.readMember isValue
      cases passes with
      | zero => omega
      | succ passes =>
          rw [findMember, if_neg more]
          simp only [if_neg further, read]
          by_cases found : parseString member.key.text = some key
          · rw [if_pos found, List.find?_cons_of_pos (by simpa using found)]
            rfl
          · rw [if_neg found, List.find?_cons_of_neg (by simpa using found)]
            exact induction values standRest (by omega)

theorem mempoolEntries_members {Double : Type} (doubles : DoubleArithmetic Double)
    {raw : ByteString} {limit passes position : Nat} {members : List Member}
    (values : ∀ member ∈ members, IsValue member.value)
    (stand : MembersAt raw position members)
    (enough : raw.length ≤ passes + position)
    (observations : List (TransactionObservation Double)) :
    mempoolEntries doubles raw limit passes position observations =
      some (observations ++ (members.take (limit - observations.length)).map
        fun member =>
          observeTransaction doubles (parseString member.key.text) member.value) := by
  induction members generalizing passes position observations with
  | nil =>
      rw [List.take_nil, List.map_nil, List.append_nil]
      cases passes with
      | zero => rfl
      | succ passes => rw [mempoolEntries, if_pos (.inl stand.ended)]
  | cons member members induction =>
      obtain ⟨isValue, values⟩ := List.forall_mem_cons.mp values
      obtain ⟨next, moved, standRest, more, further, read⟩ :=
        stand.readMember isValue
      cases passes with
      | zero => omega
      | succ passes =>
          rw [mempoolEntries]
          by_cases full : limit ≤ observations.length
          · rw [if_pos (.inr full), Nat.sub_eq_zero_of_le full]
            simp
          · have room : limit - observations.length =
                limit - (observations.length + 1) + 1 := by omega
            rw [if_neg (not_or.mpr ⟨more, full⟩)]
            simp only [if_neg further, read]
            rw [induction values standRest (by omega), List.length_append,
              List.length_singleton, room, List.take_succ_cons, List.map_cons,
              List.append_assoc, List.singleton_append]

section Texts

variable (object : Object)

theorem trim_object : trim object.text = object.inner :=
  trim_tight object.inner_tight (blank_isSpace object.before)
    (blank_isSpace object.after)

theorem isObject_inner : isObject object.inner = true := by
  have last : object.inner.getLast? = some closingBrace := by
    rw [Object.inner, objectText, ← List.cons_append, List.getLast?_concat]
  have wide : 2 ≤ object.inner.length := by
    simp [Object.inner, objectText]
  have first : object.inner.head? = some 123 := rfl
  rw [isObject, last, first]
  simpa using wide

/-- Behind the opening bracket stand the members or, if there are none, white
space. -/
theorem drop_inner :
    object.inner.drop 1 = listed object.blank (object.members.map Member.text) ++
      [closingBrace] :=
  rfl

theorem members_stand (nonempty : object.members ≠ []) :
    MembersAt object.inner 1 object.members := by
  unfold MembersAt
  rw [drop_inner, listed, if_neg (by simpa using nonempty)]

/-- An empty object has the bracket behind its white space. -/
theorem atEnd_empty (empty : object.members = []) :
    AtEnd object.inner (skipWhitespace object.inner 1) := by
  have stands : object.inner.drop 1 = object.blank.text ++ closingBrace :: [] := by
    rw [drop_inner, empty]
    rfl
  rw [skipWhitespace_blank stands (by decide), AtEnd,
    getElem?_of_stands (drop_behind stands)]
  exact .inr rfl

theorem findObjectValue_object (key : ByteString) :
    findObjectValue object.text key =
      (object.members.find? fun member => parseString member.key.text = some key).map
        Member.value := by
  unfold findObjectValue
  rw [trim_object]
  dsimp only
  rw [if_neg (by simp [isObject_inner])]
  by_cases empty : object.members = []
  · rw [empty, List.find?_nil, Option.map_none]
    rcases object.inner.length with _ | passes
    · rfl
    · rw [findMember]
      split
      · rfl
      · dsimp only
        rw [if_pos (atEnd_empty object empty)]
  · exact findMember_members object.values (members_stand object empty) (by omega)

theorem parseMempoolTransactions_object {Double : Type}
    (doubles : DoubleArithmetic Double) (limit : Nat) :
    parseMempoolTransactions doubles object.text limit =
      some ((object.members.take limit).map fun member =>
        observeTransaction doubles (parseString member.key.text) member.value) := by
  unfold parseMempoolTransactions
  rw [trim_object]
  dsimp only
  rw [if_neg (by simp [isObject_inner])]
  by_cases empty : object.members = []
  · rw [empty, List.take_nil, List.map_nil]
    rcases object.inner.length with _ | passes
    · rfl
    · rw [mempoolEntries]
      split
      · rfl
      · dsimp only
        rw [if_pos (atEnd_empty object empty)]
  · exact mempoolEntries_members doubles object.values (members_stand object empty)
      (by omega) []

end Texts

theorem parseString_literal (literal : Literal) :
    parseString literal.text = some (unescape literal.body false) :=
  parseString_between literal.body

/-- A key without an escape is its own text. -/
theorem parseString_plain {literal : Literal}
    (plain : reverseSolidus ∉ literal.body) :
    parseString literal.text = some literal.body := by
  rw [parseString_literal, unescape_of_notMem plain]

theorem find?_plainKeys {members : List Member}
    (plain : ∀ member ∈ members, reverseSolidus ∉ member.key.body) (key : ByteString) :
    (members.find? fun member => parseString member.key.text = some key) =
      members.find? fun member => member.key.body = key := by
  apply List.find?_congr
  intro member isMember
  rw [parseString_plain (plain member isMember)]
  exact decide_eq_decide.mpr Option.some_inj

/-- With distinct keys a member is found under its key. -/
theorem find?_key {members : List Member}
    (distinct : (members.map fun member => member.key.body).Nodup) {member : Member}
    (isMember : member ∈ members) :
    (members.find? fun other => other.key.body = member.key.body) = some member := by
  induction members with
  | nil => cases isMember
  | cons first members induction =>
      rw [List.map_cons, List.nodup_cons] at distinct
      rcases List.mem_cons.mp isMember with rfl | later
      · exact List.find?_cons_of_pos (by simp)
      · have differs : first.key.body ≠ member.key.body := by
          intro same
          exact distinct.1 (List.mem_map.mpr ⟨member, later, same.symm⟩)
        rw [List.find?_cons_of_neg (by simpa using differs)]
        exact induction distinct.2 later

theorem findObjectValue_member {object : Object} (plainKeys : object.PlainKeys)
    {member : Member} (isMember : member ∈ object.members) :
    findObjectValue object.text member.key.body = some member.value := by
  rw [findObjectValue_object, find?_plainKeys plainKeys.plain,
    find?_key plainKeys.distinct isMember]
  rfl

theorem findObjectValue_none {object : Object} (plainKeys : object.PlainKeys)
    {key : ByteString} (missing : ∀ member ∈ object.members, member.key.body ≠ key) :
    findObjectValue object.text key = none := by
  rw [findObjectValue_object, find?_plainKeys plainKeys.plain,
    Option.map_eq_none_iff, List.find?_eq_none]
  exact fun member isMember => by simpa using missing member isMember

/-- The number that a plain decimal integer below `2 ^ 64` spells; every other text
counts as zero. -/
def integerOf (text : ByteString) : UInt64 :=
  if text ≠ [] ∧ text.all isDigit = true ∧ digitsValue text < 2 ^ 64 then
    UInt64.ofNat (digitsValue text)
  else 0

/-- The number in the first of the members that is chosen, or zero. -/
def chosenInteger (choose : Member → Bool) (members : List Member) : UInt64 :=
  ((members.find? choose).map fun member => integerOf member.value).getD 0

/-- What is observed of a mempool entry.  An entry that is no object says
nothing. -/
structure Observes {Double : Type} (member : Member)
    (observation : TransactionObservation Double) : Prop where
  txid : observation.txid = member.key.body
  vsize : ∀ entry : Object, entry.PlainKeys → entry.text = member.value →
    observation.vsize =
      chosenInteger (fun other => other.key.body = ascii "vsize") entry.members
  weight : ∀ entry : Object, entry.PlainKeys → entry.text = member.value →
    observation.weight =
      chosenInteger (fun other => other.key.body = ascii "weight") entry.members
  escapedVsize : ∀ entry : Object, entry.text = member.value →
    observation.vsize =
      chosenInteger (fun other => parseString other.key.text = some (ascii "vsize"))
        entry.members
  escapedWeight : ∀ entry : Object, entry.text = member.value →
    observation.weight =
      chosenInteger (fun other => parseString other.key.text = some (ascii "weight"))
        entry.members
  silent : (∀ entry : Object, entry.text ≠ member.value) →
    observation.vsize = 0 ∧ observation.weight = 0

theorem fromCharsUnsigned_getD (text : ByteString) :
    ((fromCharsUnsigned text).map UInt64.ofNat).getD 0 = integerOf text := by
  unfold fromCharsUnsigned integerOf
  by_cases digits : text ≠ [] ∧ text.all isDigit = true
  · have isPlain : ¬ (text = [] ∨ text.any (fun byte => !isDigit byte) = true) := by
      simpa using digits
    rw [if_neg isPlain]
    by_cases fits : digitsValue text < 2 ^ 64
    · rw [if_neg (Nat.not_le.mpr fits), if_pos ⟨digits.1, digits.2, fits⟩]
      rfl
    · rw [if_pos (Nat.not_lt.mp fits), if_neg fun all => fits all.2.2]
      rfl
  · have notPlain : text = [] ∨ text.any (fun byte => !isDigit byte) = true := by
      by_contra plain
      exact digits (by simpa using plain)
    rw [if_pos notPlain, if_neg fun all => digits ⟨all.1, all.2.1⟩]
    rfl

theorem parseInteger_value {value : ByteString} (isValue : IsValue value) :
    (parseInteger value).getD 0 = integerOf value := by
  rw [parseInteger, trim_of_ends fun byte isEnd => isValue.tight.not_isSpace isEnd,
    fromCharsUnsigned_getD]

theorem integerMember_object (entry : Object) (key : ByteString) :
    integerMember entry.text key =
      chosenInteger (fun other => parseString other.key.text = some key)
        entry.members := by
  rw [integerMember, findObjectValue_object, chosenInteger]
  cases found : entry.members.find?
      fun other => parseString other.key.text = some key with
  | none => decide +kernel
  | some member =>
      have isMember := List.mem_of_find?_eq_some found
      exact parseInteger_value (entry.values member isMember)

theorem integerMember_plainKeys {entry : Object} (plainKeys : entry.PlainKeys)
    (key : ByteString) :
    integerMember entry.text key =
      chosenInteger (fun other => other.key.body = key) entry.members := by
  rw [integerMember_object, chosenInteger, find?_plainKeys plainKeys.plain,
    chosenInteger]

/-- A value that does not begin with a brace is no object. -/
theorem findObjectValue_of_head {value key : ByteString} (isValue : IsValue value)
    {first : UInt8} (startsWith : value.head? = some first)
    (notBrace : first ≠ beginObject) : findObjectValue value key = none := by
  unfold findObjectValue
  rw [trim_of_ends fun byte isEnd => isValue.tight.not_isSpace isEnd]
  exact if_pos (by simp [isObject, startsWith, notBrace])

theorem findObjectValue_silent {value key : ByteString} (isValue : IsValue value)
    (silent : ∀ entry : Object, entry.text ≠ value) :
    findObjectValue value key = none := by
  cases isValue with
  | string literal => exact findObjectValue_of_head (.string literal) rfl (by decide)
  | scalar isScalar =>
      obtain ⟨first, rest, startsWith, -⟩ := isScalar.tight.first
      refine findObjectValue_of_head (.scalar isScalar)
        (startsWith ▸ List.head?_cons) fun isBrace => ?_
      have brace := isScalar.bytes first (by simp [startsWith])
      rw [isBrace] at brace
      exact absurd brace (by decide)
  | array blank elements values =>
      exact findObjectValue_of_head (.array blank elements values) rfl (by decide)
  | object blank members values =>
      refine absurd ?_ (silent ⟨.empty, blank, members, values, .empty⟩)
      exact List.append_nil _

theorem observes_entry {Double : Type} (doubles : DoubleArithmetic Double)
    {member : Member} (plain : reverseSolidus ∉ member.key.body)
    (isValue : IsValue member.value) :
    Observes member
      (observeTransaction doubles (parseString member.key.text) member.value) where
  txid := by
    rw [parseString_plain plain]
    rfl
  vsize := fun entry plainKeys isEntry =>
    isEntry ▸ integerMember_plainKeys plainKeys (ascii "vsize")
  weight := fun entry plainKeys isEntry =>
    isEntry ▸ integerMember_plainKeys plainKeys (ascii "weight")
  escapedVsize := fun entry isEntry =>
    isEntry ▸ integerMember_object entry (ascii "vsize")
  escapedWeight := fun entry isEntry =>
    isEntry ▸ integerMember_object entry (ascii "weight")
  silent := by
    intro silent
    have zero : (parseInteger (ascii "0")).getD 0 = 0 := by decide +kernel
    have none (key : ByteString) : integerMember member.value key = 0 := by
      rw [integerMember, findObjectValue_silent isValue silent]
      exact zero
    exact ⟨none _, none _⟩

end Bitcoin

end Blocxxi
