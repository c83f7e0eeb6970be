import Blocxxi.JsonExtraction
import Mathlib.Data.List.Forall2

/-!
# The cursor of the scanner

Two loops go over the members of an object: one looks for a key, the other
collects the entries of the mempool.  Both are runs of one scan that logs every
position of its cursor.  On every text, whether or not it is JSON, the scan ends
by itself and its cursor stays inside.
-/

namespace Blocxxi

namespace Bitcoin

open ByteText Json JsonGrammar

/-- What a loop over members does with them. -/
structure Scan (State Result : Type) where
  full : State → Bool
  visit : State → Option ByteString → ByteString → Except Result State
  ended : State → Result
  broken : Result

/-- A run of a loop: its result, every position of the cursor, and whether the
loop ended by itself. -/
structure ScanLog (Result : Type) where
  outcome : Result
  trail : List Nat
  finished : Bool

/-- The positions of the cursor while a member is read. -/
def readMemberTrail (text : ByteString) (position : Nat) : List Nat :=
  match consumeString text position with
  | none => []
  | some keyEnd =>
      let colonAt := skipWhitespace text keyEnd
      if text[colonAt]? ≠ some colon then [keyEnd, colonAt]
      else
        let valueStart := skipWhitespace text (colonAt + 1)
        match consumeJsonValue text valueStart with
        | none => [keyEnd, colonAt, colonAt + 1, valueStart]
        | some stop =>
            let next := skipWhitespace text stop
            [keyEnd, colonAt, colonAt + 1, valueStart, stop, next,
              if text[next]? = some comma then next + 1 else next]

def Scan.run {State Result : Type} (scan : Scan State Result) (text : ByteString) :
    Nat → Nat → State → ScanLog Result
  | 0, position, state => ⟨scan.ended state, [position], false⟩
  | passes + 1, position, state =>
      if text.length ≤ position + 1 ∨ scan.full state then
        ⟨scan.ended state, [position], true⟩
      else
        let start := skipWhitespace text position
        if AtEnd text start then ⟨scan.ended state, [position, start], true⟩
        else
          let trail := position :: start :: readMemberTrail text start
          match readMember text start with
          | none => ⟨scan.broken, trail, true⟩
          | some (key, value, next) =>
              match scan.visit state key value with
              | .error result => ⟨result, trail, true⟩
              | .ok state =>
                  let log := scan.run text passes next state
                  { log with trail := trail ++ log.trail }

/-- The loop of `FindObjectValue`. -/
def memberScan (key : ByteString) : Scan Unit (Option ByteString) where
  full := fun _ => false
  visit := fun _ memberKey value =>
    if memberKey = some key then .error (some value) else .ok ()
  ended := fun _ => none
  broken := none

/-- The loop of `ParseMempoolTransactions`. -/
def mempoolScan {Double : Type} (doubles : DoubleArithmetic Double) (limit : Nat) :
    Scan (List (TransactionObservation Double))
      (Option (List (TransactionObservation Double))) where
  full := fun observations => limit ≤ observations.length
  visit := fun observations txid entry =>
    .ok (observations ++ [observeTransaction doubles txid entry])
  ended := some
  broken := none

theorem memberScan_outcome (text key : ByteString) (passes position : Nat) :
    ((memberScan key).run text passes position ()).outcome =
      findMember text key passes position := by
  induction passes generalizing position with
  | zero => rfl
  | succ passes induction =>
      rw [Scan.run, findMember]
      by_cases ended : text.length ≤ position + 1
      · rw [if_pos (.inl ended), if_pos ended]
        rfl
      rw [if_neg (by simpa [memberScan] using ended), if_neg ended]
      dsimp only
      split
      · rfl
      rcases readMember text (skipWhitespace text position) with
        _ | ⟨memberKey, value, next⟩
      · rfl
      · by_cases found : memberKey = some key
        · simp [memberScan, found]
        · simpa [memberScan, found] using induction next

theorem mempoolScan_outcome {Double : Type} (doubles : DoubleArithmetic Double)
    (raw : ByteString) (limit passes position : Nat)
    (observations : List (TransactionObservation Double)) :
    ((mempoolScan doubles limit).run raw passes position observations).outcome =
      mempoolEntries doubles raw limit passes position observations := by
  induction passes generalizing position observations with
  | zero => rfl
  | succ passes induction =>
      rw [Scan.run, mempoolEntries]
      by_cases ended : raw.length ≤ position + 1 ∨ limit ≤ observations.length
      · rw [if_pos (by simpa [mempoolScan] using ended), if_pos ended]
        rfl
      rw [if_neg (by simpa [mempoolScan] using ended), if_neg ended]
      dsimp only
      split
      · rfl
      rcases readMember raw (skipWhitespace raw position) with
        _ | ⟨txid, entry, next⟩
      · rfl
      · exact induction next _

theorem skipWhitespace_inside {text : ByteString} {position : Nat}
    (inside : position ≤ text.length) :
    skipWhitespace text position ≤ text.length := by
  have fewer := (List.takeWhile_sublist isSpace (l := text.drop position)).length_le
  rw [List.length_drop] at fewer
  unfold skipWhitespace
  omega

theorem stringEnd_inside {text : ByteString} {index stop : Nat} {escaped : Bool}
    (ends : stringEnd text index escaped = some stop) : stop ≤ index + text.length := by
  induction text generalizing index escaped with
  | nil => cases ends
  | cons current rest induction =>
      have further {escaped : Bool}
          (ends : stringEnd rest (index + 1) escaped = some stop) :
          stop ≤ index + (rest.length + 1) := by
        have inside := induction ends
        omega
      unfold stringEnd at ends
      rw [List.length_cons]
      split at ends
      · exact further ends
      split at ends
      · exact further ends
      split at ends
      · cases ends
        omega
      · exact further ends

theorem consumeString_inside {text : ByteString} {position stop : Nat}
    (consumed : consumeString text position = some stop) : stop ≤ text.length := by
  unfold consumeString at consumed
  split at consumed
  · cases consumed
  · rename_i opened
    obtain ⟨present, -⟩ := List.getElem?_eq_some_iff.mp (not_not.mp opened)
    have inside := stringEnd_inside consumed
    rw [List.length_drop] at inside
    omega

theorem valueEnd_inside (text : ByteString) (index depth : Nat)
    (inString escaped : Bool) :
    valueEnd text index depth inString escaped ≤ index + text.length := by
  induction text generalizing index depth inString escaped with
  | nil => exact Nat.le_refl index
  | cons current rest induction =>
      have further (depth : Nat) (inString escaped : Bool) :
          valueEnd rest (index + 1) depth inString escaped ≤
            index + (rest.length + 1) := by
        have inside := induction (index + 1) depth inString escaped
        omega
      unfold valueEnd
      rw [List.length_cons]
      repeat' split
      all_goals first | exact further _ _ _ | omega

theorem consumeJsonValue_inside {text : ByteString} {position stop : Nat}
    (consumed : consumeJsonValue text position = some stop) : stop ≤ text.length := by
  unfold consumeJsonValue at consumed
  dsimp only at consumed
  split at consumed
  · cases consumed
  rename_i first present
  obtain ⟨inside, -⟩ := List.getElem?_eq_some_iff.mp present
  split at consumed
  · exact consumeString_inside consumed
  · cases consumed
    have ends := valueEnd_inside (text.drop (skipWhitespace text position))
      (skipWhitespace text position) 0 false false
    rw [List.length_drop] at ends
    omega

theorem getElem?_inside {text : ByteString} {position : Nat} {byte : UInt8}
    (present : text[position]? = some byte) : position + 1 ≤ text.length :=
  (List.getElem?_eq_some_iff.mp present).1

/-- No position lies behind the text. -/
def Inside (text : ByteString) (trail : List Nat) : Prop :=
  ∀ position ∈ trail, position ≤ text.length

theorem next_inside {text : ByteString} {next : Nat} (inside : next ≤ text.length) :
    (if text[next]? = some comma then next + 1 else next) ≤ text.length := by
  split
  · rename_i present
    exact getElem?_inside present
  · exact inside

theorem readMemberTrail_inside (text : ByteString) (position : Nat) :
    Inside text (readMemberTrail text position) := by
  unfold readMemberTrail
  cases consumed : consumeString text position with
  | none => exact fun _ member => (List.not_mem_nil member).elim
  | some keyEnd =>
      have keyInside := consumeString_inside consumed
      have colonInside := skipWhitespace_inside keyInside
      dsimp only
      split
      · simp [Inside, keyInside, colonInside]
      rename_i present
      have behindColon := getElem?_inside (not_not.mp present)
      have valueInside := skipWhitespace_inside behindColon
      cases consumedValue : consumeJsonValue text
          (skipWhitespace text (skipWhitespace text keyEnd + 1)) with
      | none => simp [Inside, keyInside, colonInside, behindColon, valueInside]
      | some stop =>
          have stopInside := consumeJsonValue_inside consumedValue
          have nextInside := skipWhitespace_inside stopInside
          have lastInside := next_inside nextInside
          simp [Inside, keyInside, colonInside, behindColon, valueInside, stopInside,
            nextInside, lastInside]

/-- The position behind a member is inside. -/
theorem readMember_inside {text value : ByteString} {key : Option ByteString}
    {position next : Nat}
    (read : readMember text position = some (key, value, next)) :
    next ≤ text.length := by
  unfold readMember at read
  split at read
  · cases read
  dsimp only at read
  split at read
  · cases read
  split at read
  · cases read
  rename_i stop consumedValue
  cases read
  exact next_inside (skipWhitespace_inside (consumeJsonValue_inside consumedValue))

/-- The loop ends by itself, and its cursor stays inside. -/
structure Contained {Result : Type} (text : ByteString) (log : ScanLog Result) :
    Prop where
  finished : log.finished = true
  inside : Inside text log.trail

theorem Scan.run_contained {State Result : Type} (scan : Scan State Result)
    {text : ByteString} {passes position : Nat} (inside : position ≤ text.length)
    (enough : text.length < passes + position) (state : State) :
    Contained text (scan.run text passes position state) := by
  induction passes generalizing position state with
  | zero => omega
  | succ passes induction =>
      have startInside := skipWhitespace_inside inside
      have trailInside : Inside text (position :: skipWhitespace text position ::
          readMemberTrail text (skipWhitespace text position)) :=
        List.forall_mem_cons.mpr ⟨inside, List.forall_mem_cons.mpr
          ⟨startInside, readMemberTrail_inside text _⟩⟩
      rw [Scan.run]
      split
      · exact ⟨rfl, List.forall_mem_singleton.mpr inside⟩
      dsimp only
      split
      · exact ⟨rfl, List.forall_mem_cons.mpr
          ⟨inside, List.forall_mem_singleton.mpr startInside⟩⟩
      cases read : readMember text (skipWhitespace text position) with
      | none => exact ⟨rfl, trailInside⟩
      | some member =>
          obtain ⟨key, value, next⟩ := member
          dsimp only
          cases scan.visit state key value with
          | error result => exact ⟨rfl, trailInside⟩
          | ok state =>
              have start := le_skipWhitespace text position
              have moved := lt_readMember read
              have rest := induction (readMember_inside read) (by omega) state
              exact ⟨rest.finished,
                List.forall_mem_append.mpr ⟨trailInside, rest.inside⟩⟩

theorem one_le_length {text : ByteString} (object : isObject text = true) :
    1 ≤ text.length := by
  simp only [isObject, Bool.and_eq_true, decide_eq_true_eq] at object
  omega

/-- `FindObjectValue`, logged. -/
def findObjectValueLogged (object key : ByteString) : ScanLog (Option ByteString) :=
  let object := trim object
  if ¬ isObject object then ⟨none, [], true⟩
  else (memberScan key).run object object.length 1 ()

/-- `ParseMempoolTransactions`, logged. -/
def parseMempoolTransactionsLogged {Double : Type} (doubles : DoubleArithmetic Double)
    (raw : ByteString) (limit : Nat) :
    ScanLog (Option (List (TransactionObservation Double))) :=
  let raw := trim raw
  if ¬ isObject raw then ⟨none, [], true⟩
  else (mempoolScan doubles limit).run raw raw.length 1 []

/-- The log of a call: its loop is contained, and without the log it is the
call. -/
def Logs {Result : Type} (text : ByteString) (log : ScanLog Result)
    (result : Result) : Prop :=
  log.outcome = result ∧ Contained (trim text) log

theorem findObjectValue_logs (text key : ByteString) :
    Logs text (findObjectValueLogged text key) (findObjectValue text key) := by
  unfold findObjectValueLogged findObjectValue
  dsimp only
  by_cases object : isObject (trim text) = true
  · rw [if_neg (not_not.mpr object), if_neg (not_not.mpr object)]
    exact ⟨memberScan_outcome _ key _ 1,
      Scan.run_contained _ (one_le_length object) (Nat.lt_succ_self _) ()⟩
  · rw [if_pos object, if_pos object]
    exact ⟨rfl, rfl, List.forall_mem_nil _⟩

theorem parseMempoolTransactions_logs {Double : Type}
    (doubles : DoubleArithmetic Double) (text : ByteString) (limit : Nat) :
    Logs text (parseMempoolTransactionsLogged doubles text limit)
      (parseMempoolTransactions doubles text limit) := by
  unfold parseMempoolTransactionsLogged parseMempoolTransactions
  dsimp only
  by_cases object : isObject (trim text) = true
  · rw [if_neg (not_not.mpr object), if_neg (not_not.mpr object)]
    exact ⟨mempoolScan_outcome doubles _ limit _ 1 [],
      Scan.run_contained _ (one_le_length object) (Nat.lt_succ_self _) []⟩
  · rw [if_pos object, if_pos object]
    exact ⟨rfl, rfl, List.forall_mem_nil _⟩

/-- On well-formed objects the members are found and collected; on every text the
loops end with their cursor inside. -/
theorem members_extracted :
    (∀ object : Object, object.PlainKeys →
      (∀ member ∈ object.members,
        findObjectValue object.text member.key.body = some member.value) ∧
      ∀ key, (∀ member ∈ object.members, member.key.body ≠ key) →
        findObjectValue object.text key = none) ∧
    (∀ (Double : Type) (doubles : DoubleArithmetic Double) (object : Object),
      object.PlainKeys → ∀ limit, ∃ observations,
        parseMempoolTransactions doubles object.text limit = some observations ∧
          List.Forall₂ Observes (object.members.take limit) observations) ∧
    ∀ text : ByteString,
      (∀ key, Logs text (findObjectValueLogged text key)
        (findObjectValue text key)) ∧
      ∀ (Double : Type) (doubles : DoubleArithmetic Double) (limit : Nat),
        Logs text (parseMempoolTransactionsLogged doubles text limit)
          (parseMempoolTransactions doubles text limit) := by
  refine ⟨fun object plainKeys => ⟨fun member isMember => ?_, fun key missing => ?_⟩,
    fun Double doubles object plainKeys limit =>
      ⟨_, parseMempoolTransactions_object object doubles limit, ?_⟩,
    fun text => ⟨findObjectValue_logs text,
      fun Double doubles => parseMempoolTransactions_logs doubles text⟩⟩
  · exact findObjectValue_member plainKeys isMember
  · exact findObjectValue_none plainKeys missing
  · rw [List.forall₂_map_right_iff, List.forall₂_same]
    intro member isMember
    have present := List.mem_of_mem_take isMember
    exact observes_entry doubles (plainKeys.plain member present)
      (object.values member present)

/-- An object of two members, with white space around them: an array without elements,
and a closing brace in quotes. -/
def spacedObject : Object where
  before := ⟨[32], List.forall_mem_singleton.mpr rfl⟩
  blank := .empty
  members :=
    [⟨⟨[10], List.forall_mem_singleton.mpr rfl⟩, [.plain 'a' (by decide)], .empty, .empty,
        arrayText .empty [], .empty⟩,
      ⟨.empty, [.plain 'b' (by decide)], .empty, .empty,
        Literal.text [.plain (Char.ofNat 125) (by decide)], .empty⟩]
  values := List.forall_mem_cons.mpr
    ⟨.array .empty [] (List.forall_mem_nil _),
      List.forall_mem_singleton.mpr (.string _)⟩
  after := .empty

theorem members_extracted_spaced :
    findObjectValue spacedObject.text (ascii "b") = some [34, 125, 34] := by
  have plainKeys : spacedObject.PlainKeys := ⟨by decide, by decide⟩
  exact (members_extracted.1 spacedObject plainKeys).1
    (spacedObject.members.get ⟨1, by decide⟩) (List.get_mem _ _)

end Bitcoin

end Blocxxi
