import Blocxxi.JsonExtraction
import Mathlib.Data.List.Forall2

/-!
# What a decoded string says

The decoder takes the backslash out of an escape and keeps what follows it.  For
three of the escapes the byte that follows is the character that is meant.  For
the other five, and for every escaped code unit, it is not, so a literal is
decoded to what it denotes exactly when it has none of those.
-/

namespace Blocxxi

namespace Bitcoin

open Blocxxi.Core ByteText Json JsonGrammar

/-- The bytes of a piece without its backslash. -/
def keptPiece : Piece → ByteString
  | .plain character _ => String.utf8EncodeChar character
  | .short escape => [escape.letter]
  | .unicode unit => 117 :: unit.digits

def kept (literal : Literal) : ByteString :=
  literal.flatMap keptPiece

theorem kept_cons (piece : Piece) (literal : Literal) :
    kept (piece :: literal) = keptPiece piece ++ kept literal :=
  List.flatMap_cons

theorem unescape_inert {text : ByteString}
    (inert : ∀ byte ∈ text, byte ≠ quote ∧ byte ≠ backslash) (rest : ByteString) :
    unescape (text ++ rest) false = text ++ unescape rest false := by
  induction text with
  | nil => rfl
  | cons byte text induction =>
      obtain ⟨⟨-, notBackslash⟩, inert⟩ := List.forall_mem_cons.mp inert
      rw [List.cons_append, unescape, if_neg Bool.false_ne_true, if_neg notBackslash,
        induction inert, List.cons_append]

theorem unescape_piece (piece : Piece) (rest : ByteString) :
    unescape (piece.text ++ rest) false = keptPiece piece ++ unescape rest false := by
  cases piece with
  | plain character unescaped =>
      exact unescape_inert (utf8EncodeChar_plain unescaped) rest
  | short escape => rfl
  | unicode unit =>
      exact congrArg (117 :: ·) (unescape_inert (hexDigits_inert unit) rest)

theorem unescape_body (literal : Literal) :
    unescape (Literal.body literal) false = kept literal := by
  induction literal with
  | nil => rfl
  | cons piece literal induction =>
      rw [Literal.body_cons, unescape_piece, induction, kept_cons]

/-- What the decoder makes of a literal, whatever white space is around it. -/
theorem parseString_kept (before after : Blank) (literal : Literal) :
    parseString (before.text ++ (literal.text ++ after.text)) =
      some (kept literal) := by
  have tight : Tight literal.text := (IsValue.string literal).tight
  have trimmed : trim (before.text ++ (literal.text ++ after.text)) =
      trim literal.text := by
    rw [trim_tight tight (blank_isSpace before) (blank_isSpace after),
      trim_of_ends fun byte isEnd => tight.not_isSpace isEnd]
  have same : parseString (before.text ++ (literal.text ++ after.text)) =
      parseString literal.text := by
    unfold parseString
    rw [trimmed]
  rw [same, parseString_literal, unescape_body]

/-- The pieces whose last byte is the character that they stand for. -/
def Verbatim : Piece → Prop
  | .plain _ _ => True
  | .short escape =>
      escape = .quotationMark ∨ escape = .reverseSolidus ∨ escape = .solidus
  | .unicode _ => False

instance : DecidablePred Verbatim
  | .plain _ _ => .isTrue trivial
  | .short escape =>
      inferInstanceAs (Decidable (escape = .quotationMark ∨ escape = .reverseSolidus ∨
        escape = .solidus))
  | .unicode _ => .isFalse id

theorem verbatim_short_iff (escape : ShortEscape) :
    Verbatim (.short escape) ↔ escape.letter = escape.code := by
  cases escape <;> decide

theorem denoted_plain (character : Char) (unescaped : Unescaped character)
    (rest : Literal) :
    Literal.denoted (.plain character unescaped :: rest) =
      (Literal.denoted rest).map (String.utf8EncodeChar character ++ ·) := by
  rw [Literal.denoted, Literal.characters, Option.map_map, Literal.denoted,
    Option.map_map]
  rfl

theorem denoted_short (escape : ShortEscape) (rest : Literal) :
    Literal.denoted (.short escape :: rest) =
      (Literal.denoted rest).map (escape.code :: ·) := by
  rw [Literal.denoted, Literal.characters, Option.map_map, Literal.denoted,
    Option.map_map]
  cases escape <;> rfl

/-- An escaped code unit stands for a character or, together with the piece behind
it, for half of one. -/
theorem denoted_unicode {unit : CodeUnit} {rest : Literal} {bytes : ByteString}
    (denoted : Literal.denoted (.unicode unit :: rest) = some bytes) :
    ∃ character behind,
      bytes = String.utf8EncodeChar character ++ behind ∧
        (Literal.denoted rest = some behind ∨
          ∃ low tail, rest = .unicode low :: tail ∧
            Literal.denoted tail = some behind) := by
  obtain ⟨characters, isCharacters, rfl⟩ := Option.map_eq_some_iff.mp denoted
  unfold Literal.characters at isCharacters
  split at isCharacters
  · split at isCharacters
    · rename_i low tail
      split at isCharacters
      · obtain ⟨others, isOthers, rfl⟩ := Option.map_eq_some_iff.mp isCharacters
        exact ⟨_, utf8 others, List.flatMap_cons, .inr ⟨low, tail, rfl,
          congrArg (Option.map utf8) isOthers⟩⟩
      · cases isCharacters
    · cases isCharacters
  · split at isCharacters
    · cases isCharacters
    · obtain ⟨others, isOthers, rfl⟩ := Option.map_eq_some_iff.mp isCharacters
      exact ⟨_, utf8 others, List.flatMap_cons, .inl
        (congrArg (Option.map utf8) isOthers)⟩

theorem utf8EncodeChar_short (character : Char) :
    (String.utf8EncodeChar character).length ≤ 4 := by
  rw [String.length_utf8EncodeChar]
  exact character.utf8Size_le_four

/-- An escaped code unit takes more bytes than what it stands for. -/
theorem keptPiece_unicode_length (unit : CodeUnit) :
    (keptPiece (.unicode unit)).length = 5 := by
  rw [keptPiece, List.length_cons, unit.length_eq]

/-- A literal that begins with an escaped code unit denotes less than is kept of it,
if no literal behind it denotes more. -/
theorem unicode_length_lt {unit : CodeUnit} {rest : Literal} {bytes : ByteString}
    (denoted : Literal.denoted (.unicode unit :: rest) = some bytes)
    (shorter : ∀ tail behind, List.length tail ≤ List.length rest →
      Literal.denoted tail = some behind → behind.length ≤ (kept tail).length) :
    bytes.length < (kept (.unicode unit :: rest)).length := by
  obtain ⟨character, behind, rfl, isBehind | ⟨low, tail, rfl, isBehind⟩⟩ :=
    denoted_unicode denoted
  · have behindLe := shorter rest behind (Nat.le_refl _) isBehind
    have short := utf8EncodeChar_short character
    rw [kept_cons, List.length_append, List.length_append, keptPiece_unicode_length]
    omega
  · have behindLe := shorter tail behind (Nat.le_succ _) isBehind
    have short := utf8EncodeChar_short character
    rw [kept_cons, kept_cons, List.length_append, List.length_append,
      List.length_append, keptPiece_unicode_length, keptPiece_unicode_length]
    omega

/-- No literal denotes more bytes than are kept of it. -/
theorem denoted_length_le (literal : Literal) {bytes : ByteString}
    (denoted : Literal.denoted literal = some bytes) :
    bytes.length ≤ (kept literal).length := by
  -- A pair of code units is one step, so the induction is on the length.
  induction size : List.length literal using Nat.strong_induction_on
    generalizing literal bytes with
  | h size induction =>
      subst size
      match literal with
      | [] =>
          cases denoted
          exact Nat.zero_le _
      | .plain character unescaped :: rest =>
          rw [denoted_plain] at denoted
          obtain ⟨behind, isBehind, rfl⟩ := Option.map_eq_some_iff.mp denoted
          have shorter := induction _ (Nat.lt_succ_self _) rest isBehind rfl
          rw [kept_cons, List.length_append, List.length_append, keptPiece]
          omega
      | .short escape :: rest =>
          rw [denoted_short] at denoted
          obtain ⟨behind, isBehind, rfl⟩ := Option.map_eq_some_iff.mp denoted
          have shorter := induction _ (Nat.lt_succ_self _) rest isBehind rfl
          rw [kept_cons, List.length_append, keptPiece, List.length_cons,
            List.length_singleton]
          omega
      | .unicode unit :: rest =>
          refine (unicode_length_lt denoted fun tail behind fewer isBehind => ?_).le
          exact induction _ (Nat.lt_succ_of_le fewer) tail isBehind rfl

/-- What is kept of a literal is what it denotes exactly when all of its pieces are
verbatim. -/
theorem denoted_eq_kept_iff (literal : Literal) :
    Literal.denoted literal = some (kept literal) ↔ ∀ piece ∈ literal, Verbatim piece := by
  induction literal with
  | nil => exact ⟨fun _ => List.forall_mem_nil _, fun _ => rfl⟩
  | cons piece rest induction =>
      rw [List.forall_mem_cons, kept_cons]
      cases piece with
      | plain character unescaped =>
          rw [denoted_plain, keptPiece, Option.map_eq_some_iff, ← induction]
          constructor
          · rintro ⟨behind, isBehind, same⟩
            rw [isBehind, List.append_cancel_left same]
            exact ⟨trivial, rfl⟩
          · rintro ⟨-, isBehind⟩
            exact ⟨_, isBehind, rfl⟩
      | short escape =>
          rw [denoted_short, keptPiece, Option.map_eq_some_iff, verbatim_short_iff,
            ← induction]
          constructor
          · rintro ⟨behind, isBehind, same⟩
            obtain ⟨code, behindEq⟩ := List.cons.inj same
            rw [isBehind, behindEq]
            exact ⟨code.symm, rfl⟩
          · rintro ⟨letter, isBehind⟩
            exact ⟨_, isBehind, by rw [letter]; rfl⟩
      | unicode unit =>
          constructor
          · intro denoted
            have shorter := unicode_length_lt denoted
              fun tail behind _ isBehind => denoted_length_le tail isBehind
            rw [kept_cons] at shorter
            exact absurd shorter (Nat.lt_irrefl _)
          · rintro ⟨verbatim, -⟩
            exact verbatim.elim

/-- The literal is decoded to the UTF-8 text of what it denotes, whatever white space
is around it. -/
def Decoded (literal : Literal) : Prop :=
  ∃ characters, literal.characters = some characters ∧
    ∀ before after : Blank,
      parseString (before.text ++ (literal.text ++ after.text)) =
        some (utf8 characters)

theorem eq_some_denoted_iff (literal : Literal) :
    (∃ characters, literal.characters = some characters ∧
      some (kept literal) = some (utf8 characters)) ↔
      ∀ piece ∈ literal, Verbatim piece := by
  rw [← denoted_eq_kept_iff, Literal.denoted, Option.map_eq_some_iff]
  constructor
  · rintro ⟨characters, isCharacters, same⟩
    exact ⟨characters, isCharacters, (Option.some.inj same).symm⟩
  · rintro ⟨characters, isCharacters, same⟩
    exact ⟨characters, isCharacters, congrArg some same.symm⟩

theorem decoded_iff (literal : Literal) :
    Decoded literal ↔ ∀ piece ∈ literal, Verbatim piece := by
  rw [← eq_some_denoted_iff]
  constructor
  · rintro ⟨characters, isCharacters, decodes⟩
    refine ⟨characters, isCharacters, ?_⟩
    rw [← decodes .empty .empty, parseString_kept]
  · rintro ⟨characters, isCharacters, same⟩
    refine ⟨characters, isCharacters, fun before after => ?_⟩
    rw [parseString_kept, same]

/-- The text is what the literal denotes. -/
def Tells (literal : Literal) (text : ByteString) : Prop :=
  literal.denoted = some text

theorem tells_kept_iff (literal : Literal) :
    Tells literal (kept literal) ↔ ∀ piece ∈ literal, Verbatim piece :=
  denoted_eq_kept_iff literal

theorem parseString_text (literal : Literal) :
    parseString literal.text = some (kept literal) := by
  rw [parseString_literal, unescape_body]

/-- The result of an answer that is a string. -/
theorem parseResult_string {response : ByteString} {literal : Literal}
    (result : extractResultValue response = some literal.text) :
    parseResult response parseString = some (kept literal) := by
  rw [parseResult, result, Option.bind_some, parseString_text]

theorem warning_string {Double : Type} (doubles : DoubleArithmetic Double)
    {mempoolInfo networkInfo blockchainInfo : ByteString} {literal : Literal}
    (warnings : findObjectValue networkInfo (ascii "warnings") = some literal.text) :
    (observeNetwork doubles mempoolInfo networkInfo blockchainInfo).warning =
      kept literal := by
  change (parseString ((findObjectValue networkInfo (ascii "warnings")).getD
    (ascii "\"\""))).getD [] = kept literal
  rw [warnings, Option.getD_some, parseString_text, Option.getD_some]

/-- The keys that are compared are the ones that the literals denote. -/
theorem findObjectValue_verbatim {object : Object}
    (verbatim : ∀ member ∈ object.members, ∀ piece ∈ member.key, Verbatim piece)
    (key : ByteString) :
    findObjectValue object.text key =
      (object.members.find? fun member => member.key.denoted = some key).map
        Member.value := by
  rw [findObjectValue_object]
  congr 1
  apply List.find?_congr
  intro member isMember
  rw [parseString_text, (denoted_eq_kept_iff _).mpr (verbatim member isMember)]

theorem compared_iff (literal : Literal) :
    (∀ key, parseString literal.text = some key ↔ Tells literal key) ↔
      ∀ piece ∈ literal, Verbatim piece := by
  rw [parseString_text, ← tells_kept_iff]
  constructor
  · intro compares
    exact (compares (kept literal)).mp rfl
  · intro tells key
    rw [Tells, tells]

/-- Strings are decoded to what they denote exactly when every escape in them is of a
quotation mark, a solidus or a reverse solidus; so are the strings of a poll, the
reported transactions and the keys that are compared. -/
theorem strings_decoded_iff (literal : Literal) :
    (Decoded literal ↔ ∀ piece ∈ literal, Verbatim piece) ∧
    (∀ response : ByteString, extractResultValue response = some literal.text →
      ∃ text, parseResult response parseString = some text ∧
        (Tells literal text ↔ ∀ piece ∈ literal, Verbatim piece)) ∧
    (∀ (Double : Type) (doubles : DoubleArithmetic Double)
      (mempoolInfo networkInfo blockchainInfo : ByteString),
      findObjectValue networkInfo (ascii "warnings") = some literal.text →
        (Tells literal
            (observeNetwork doubles mempoolInfo networkInfo blockchainInfo).warning ↔
          ∀ piece ∈ literal, Verbatim piece)) ∧
    (∀ (Double : Type) (doubles : DoubleArithmetic Double) (object : Object)
      (limit : Nat), ∃ observations,
        parseMempoolTransactions doubles object.text limit = some observations ∧
          List.Forall₂ (fun member observation =>
            Tells member.key observation.txid ↔ ∀ piece ∈ member.key, Verbatim piece)
            (object.members.take limit) observations) ∧
    ((∀ key, parseString literal.text = some key ↔ Tells literal key) ↔
      ∀ piece ∈ literal, Verbatim piece) ∧
    ∀ object : Object,
      (∀ member ∈ object.members, ∀ piece ∈ member.key, Verbatim piece) →
        ∀ key, findObjectValue object.text key =
          (object.members.find? fun member => member.key.denoted = some key).map
            Member.value := by
  refine ⟨decoded_iff literal, fun response result => ?_,
    fun Double doubles mempoolInfo networkInfo blockchainInfo warnings => ?_,
    fun Double doubles object limit =>
      ⟨_, parseMempoolTransactions_object object doubles limit, ?_⟩,
    compared_iff literal, fun object => findObjectValue_verbatim⟩
  · exact ⟨kept literal, parseResult_string result, tells_kept_iff literal⟩
  · rw [warning_string doubles warnings]
    exact tells_kept_iff literal
  · rw [List.forall₂_map_right_iff, List.forall₂_same]
    intro member _
    rw [parseString_text]
    exact tells_kept_iff member.key

/-- An `é` and an escaped solidus. -/
theorem strings_decoded_iff_solidus :
    Decoded [.plain (Char.ofNat 233) (by decide), .short .solidus] :=
  (strings_decoded_iff _).1.mpr (by decide)

/-- An escaped line feed is decoded to the letter `n`. -/
theorem strings_not_decoded : ¬ ∀ literal : Literal, Decoded literal := by
  intro all
  obtain ⟨characters, isCharacters, decodes⟩ := all [.short .lineFeed]
  cases isCharacters
  exact absurd (decodes .empty .empty) (by decide)

end Bitcoin

end Blocxxi
