import Blocxxi.MainlineNode
import Blocxxi.StepMachineRuns

/-!
# Replies of bootstrap nodes

When it starts, a node asks every bootstrap node for nodes, and it tells the
application of those that answer.  It knows a reply by the last digit of the
bootstrap node's number, and takes an error for an answer.  So replies are taken
for the right bootstrap node as long as only the first ten answer, and neither an
error nor a stranger's reply comes under an identifier that still waits.
-/

namespace Blocxxi

namespace Kademlia

open Cxx Bencode ByteText StepMachine

/-- The identifier of the query to a bootstrap node. -/
def bootstrapId (endpoint : Nat) : ByteString :=
  [98, UInt8.ofNat (48 + endpoint % 10)]

theorem bootstrapId_eq_iff {first second : Nat} :
    bootstrapId first = bootstrapId second ↔ first % 10 = second % 10 := by
  constructor
  · intro same
    have digits := congrArg UInt8.toNat (List.cons.inj (List.cons.inj same).2).1
    rw [UInt8.toNat_ofNat', UInt8.toNat_ofNat'] at digits
    omega
  · intro same
    rw [bootstrapId, bootstrapId, same]

/-- The first bootstrap node whose query has an identifier, with its name.  The
table keeps the entry of that query. -/
def firstWithId (transactionId : ByteString) :
    Nat → List ByteString → Option (Nat × ByteString)
  | _, [] => none
  | index, name :: rest =>
      if bootstrapId index = transactionId then some (index, name)
      else firstWithId transactionId (index + 1) rest

theorem firstWithId_some {transactionId name : ByteString} {index endpoint : Nat}
    {names : List ByteString}
    (found : firstWithId transactionId index names = some (endpoint, name)) :
    bootstrapId endpoint = transactionId ∧ index ≤ endpoint ∧
      names[endpoint - index]? = some name ∧
      ∀ earlier, index ≤ earlier → earlier < endpoint →
        bootstrapId earlier ≠ transactionId := by
  induction names generalizing index with
  | nil => cases found
  | cons first rest ih =>
      rw [firstWithId] at found
      split at found
      · rename_i isFirst
        cases found
        refine ⟨isFirst, Nat.le_refl _, by simp, ?_⟩
        intro earlier after before
        omega
      · rename_i notFirst
        obtain ⟨isId, later, isName, none⟩ := ih found
        refine ⟨isId, by omega, ?_, ?_⟩
        · obtain ⟨distance, rfl⟩ := Nat.exists_eq_add_of_lt later
          have ahead : index + distance + 1 - index = distance + 1 := by omega
          have behind : index + distance + 1 - (index + 1) = distance := by omega
          rw [ahead, List.getElem?_cons_succ]
          rwa [behind] at isName
        · intro earlier after before
          by_cases same : earlier = index
          · rw [same]
            exact notFirst
          · exact none earlier (by omega) before

theorem firstWithId_of_lt {names : List ByteString} {index endpoint : Nat}
    (from_index : index ≤ endpoint) (small : endpoint - index < names.length) :
    ∃ found, firstWithId (bootstrapId endpoint) index names = some found := by
  induction names generalizing index with
  | nil => cases small
  | cons first rest ih =>
      rw [firstWithId]
      split
      · exact ⟨_, rfl⟩
      · rename_i notFirst
        have differs : endpoint ≠ index := by
          rintro rfl
          exact notFirst rfl
        rw [List.length_cons] at small
        exact ih (by omega) (by omega)

/-- One of the first ten bootstrap nodes is the first with its identifier. -/
theorem firstWithId_bootstrapId {names : List ByteString} {endpoint : Nat}
    (small : endpoint < names.length) (oneDigit : endpoint < 10) :
    firstWithId (bootstrapId endpoint) 0 names =
      names[endpoint]?.map fun name => (endpoint, name) := by
  obtain ⟨⟨first, name⟩, found⟩ := firstWithId_of_lt (Nat.zero_le endpoint) small
  obtain ⟨sameId, -, isName, noneBefore⟩ := firstWithId_some found
  have sameDigit := bootstrapId_eq_iff.mp sameId
  have isFirst : first = endpoint := by
    by_contra differs
    rcases Nat.lt_or_gt_of_ne differs with before | after
    · omega
    · exact noneBefore endpoint (Nat.zero_le _) after rfl
  subst isFirst
  rw [Nat.sub_zero] at isName
  rw [found, isName]
  rfl

/-- The first with an identifier is one of the first ten. -/
theorem firstWithId_lt_ten {transactionId name : ByteString} {endpoint : Nat}
    {names : List ByteString}
    (found : firstWithId transactionId 0 names = some (endpoint, name)) :
    endpoint < 10 := by
  obtain ⟨sameId, -, -, noneBefore⟩ := firstWithId_some found
  by_contra large
  apply noneBefore (endpoint % 10) (Nat.zero_le _) (by omega)
  rw [← sameId, bootstrapId_eq_iff, Nat.mod_mod]

theorem lookup_tableEmplace {Value : Type} (key other : ByteString)
    (value : Value) (table : AList fun _ : ByteString => Value) :
    (tableEmplace key value table).lookup other =
      (table.lookup other).or (if key = other then some value else none) := by
  unfold tableEmplace
  split
  · rename_i member
    obtain ⟨stored, isStored⟩ := tableLookup_of_mem member
    by_cases same : key = other
    · subst same
      rw [isStored]
      rfl
    · rw [if_neg same, Option.or_none]
  · rename_i fresh
    by_cases same : key = other
    · subst same
      rw [AList.lookup_insert, AList.lookup_eq_none.mpr fresh, if_pos rfl]
      rfl
    · rw [AList.lookup_insert_ne (Ne.symm same), if_neg same, Option.or_none]

/-- The bootstrap node has a separator and is resolved. -/
def Resolves (resolves : ByteString → Bool) (name : ByteString) : Prop :=
  58 ∈ name ∧ resolves name = true

theorem lookup_sendBootstrapQueries {resolves : ByteString → Bool}
    {names : List ByteString} (resolved : ∀ name ∈ names, Resolves resolves name)
    (index : Nat) (node : MainlineDhtNode) (transactionId : ByteString) :
    (sendBootstrapQueries resolves index names node).pendingBootstraps.lookup
        transactionId =
      (node.pendingBootstraps.lookup transactionId).or
        ((firstWithId transactionId index names).map Prod.snd) := by
  induction names generalizing index node with
  | nil =>
      rw [sendBootstrapQueries, firstWithId, Option.map_none, Option.or_none]
  | cons name rest ih =>
      obtain ⟨separated, isResolved⟩ := resolved name List.mem_cons_self
      rw [sendBootstrapQueries, if_neg (by simp [separated, isResolved]),
        ih fun other member => resolved other (List.mem_cons_of_mem name member)]
      dsimp only
      rw [lookup_tableEmplace, Option.or_assoc, firstWithId, bootstrapId]
      split
      · rfl
      · rfl

/-- A node that some bootstrap nodes were added to, and that was started. -/
def startedNode (resolves : ByteString → Bool) (names : List ByteString) :
    MainlineDhtNode :=
  run step (names.map Event.addBootstrapNode ++ [.start resolves]) {}

theorem run_addBootstrapNode (names : List ByteString) (node : MainlineDhtNode) :
    run step (names.map Event.addBootstrapNode) node =
      { node with bootstrapNodes := node.bootstrapNodes ++ names } := by
  induction names generalizing node with
  | nil => simp [run]
  | cons name rest ih => simp [run, step, ih]

theorem lookup_startedNode {resolves : ByteString → Bool}
    {names : List ByteString} (resolved : ∀ name ∈ names, Resolves resolves name)
    (transactionId : ByteString) :
    (startedNode resolves names).pendingBootstraps.lookup transactionId =
      (firstWithId transactionId 0 names).map Prod.snd := by
  have started : startedNode resolves names = sendBootstrapQueries resolves 0 names
      { bootstrapNodes := names, started := true } := by
    rw [startedNode, run_append, run_addBootstrapNode]
    rfl
  rw [started, lookup_sendBootstrapQueries resolved]
  rfl

/-- What a bootstrap node answers its query with. -/
inductive BootstrapReply
  | response (response : KrpcResponse)
  | error (error : KrpcError)

def BootstrapReply.payload : BootstrapReply → Payload
  | .response sent => .response sent
  | .error sent => .error sent

/-- What happens to a started node: a bootstrap node answers its own query, any
other handler runs, or the node sends a query of its own. -/
inductive Occurrence
  | answer (endpoint : Nat) (version : Option ByteString) (reply : BootstrapReply)
    (throws : Bool)
  | handler (handler : Handler)
  | query (now : Nat) (query : KrpcQuery)

def Occurrence.event : Occurrence → Event
  | .answer endpoint version reply throws =>
      .handler (.received
        { transactionId := bootstrapId endpoint
          version := version
          payload := reply.payload } throws)
  | .handler run => .handler run
  | .query now sent => .query now sent

/-- The bootstrap node that answers. -/
def Occurrence.answerer : Occurrence → Option Nat
  | .answer endpoint _ _ _ => some endpoint
  | _ => none

/-- Every bootstrap node answers at most once. -/
structure AnswerOnce (names : List ByteString) (occurrences : List Occurrence) :
    Prop where
  distinct : (occurrences.filterMap Occurrence.answerer).Nodup
  known : ∀ endpoint ∈ occurrences.filterMap Occurrence.answerer,
    endpoint < names.length

/-- The identifier that a response or an error comes under. -/
def repliesTo : Event → Option ByteString
  | .handler (.received message _) =>
      match message.payload with
      | .query _ => none
      | _ => some message.transactionId
  | _ => none

/-- The bootstrap node that an event is taken for, and the name that the
application is told. -/
def notice (names : List ByteString) (event : Event) (node : MainlineDhtNode) :
    Option (Option Nat × ByteString) :=
  (repliesTo event).bind fun transactionId =>
    (node.pendingBootstraps.lookup transactionId).map fun name =>
      ((firstWithId transactionId 0 names).map Prod.fst, name)

/-- What the application should be told: that a bootstrap node answered. -/
def expected (names : List ByteString) :
    Occurrence → Option (Option Nat × ByteString)
  | .answer endpoint _ (.response _) _ =>
      names[endpoint]?.map fun name => (some endpoint, name)
  | _ => none

section Notices

variable {names : List ByteString} {node : MainlineDhtNode}

theorem completeRequest_pendingBootstraps (transactionId : ByteString)
    (completion : Completion) (node : MainlineDhtNode) :
    (completeRequest transactionId completion node).pendingBootstraps =
      node.pendingBootstraps := by
  unfold completeRequest
  rcases takePendingRequest_cases transactionId node with
    ⟨-, taken⟩ | ⟨callback, -, taken⟩
  · rw [taken]
  · rw [taken]

theorem sendCompleted_pendingBootstraps (transactionId : ByteString)
    (failed : Bool) (node : MainlineDhtNode) :
    (sendCompleted transactionId failed node).pendingBootstraps =
      node.pendingBootstraps := by
  unfold sendCompleted
  split
  · apply completeRequest_pendingBootstraps
  · rfl

/-- What is not taken for a bootstrap node leaves their table alone. -/
theorem pendingBootstraps_of_notice_none {occurrence : Occurrence}
    (silent : notice names occurrence.event node = none) :
    (step occurrence.event node).pendingBootstraps = node.pendingBootstraps := by
  have received (message : KrpcMessage) (throws : Bool)
      (silent : notice names (.handler (.received message throws)) node = none) :
      (receiveMessage message throws node).pendingBootstraps =
        node.pendingBootstraps := by
    obtain ⟨transactionId, version, payload⟩ := message
    have absent : (∀ query, payload ≠ .query query) →
        transactionId ∉ node.pendingBootstraps := by
      intro isReply
      cases payload with
      | query query => exact (isReply query rfl).elim
      | response response =>
          rw [notice, repliesTo, Option.bind_some, Option.map_eq_none_iff] at silent
          exact AList.lookup_eq_none.mp silent
      | error error =>
          rw [notice, repliesTo, Option.bind_some, Option.map_eq_none_iff] at silent
          exact AList.lookup_eq_none.mp silent
    unfold receiveMessage
    split
    · rfl
    · rename_i isReply
      rw [if_neg (absent isReply)]
      apply completeRequest_pendingBootstraps
  cases occurrence with
  | answer endpoint version reply throws => exact received _ throws silent
  | handler handler =>
      cases handler with
      | sent transactionId failed => apply sendCompleted_pendingBootstraps
      | received message throws => exact received message throws silent
      | expired transactionId aborted =>
          rw [Occurrence.event, step, handle, timerExpired]
          split
          · rfl
          · apply completeRequest_pendingBootstraps
  | query now query =>
      rw [Occurrence.event, step, sendQuery]
      split
      · apply sendCompleted_pendingBootstraps
      · rfl

/-- A response under an identifier that waits takes the entry, unless the
application throws. -/
theorem pendingBootstraps_response {endpoint : Nat} {name : ByteString}
    (waits : node.pendingBootstraps.lookup (bootstrapId endpoint) = some name)
    (version : Option ByteString) (response : KrpcResponse) (throws : Bool) :
    (step (Occurrence.answer endpoint version (.response response)
      throws).event node).pendingBootstraps =
        if throws then node.pendingBootstraps
        else node.pendingBootstraps.erase (bootstrapId endpoint) := by
  have member := mem_of_tableLookup waits
  cases throws with
  | false =>
      simp [Occurrence.event, step, handle, receiveMessage, BootstrapReply.payload, member]
  | true =>
      simp [Occurrence.event, step, handle, receiveMessage, BootstrapReply.payload, member]

/-- The bootstrap node has answered with a response that the application
took. -/
def Settled (before : List Occurrence) (endpoint : Nat) : Prop :=
  ∃ version response,
    Occurrence.answer endpoint version (.response response) false ∈ before

/-- The entry of a bootstrap node waits until its response. -/
structure Waiting (names : List ByteString) (before : List Occurrence)
    (node : MainlineDhtNode) : Prop where
  waits : ∀ transactionId endpoint name,
    firstWithId transactionId 0 names = some (endpoint, name) →
      ¬ Settled before endpoint →
        node.pendingBootstraps.lookup transactionId = some name
  settled : ∀ transactionId endpoint name,
    firstWithId transactionId 0 names = some (endpoint, name) →
      Settled before endpoint →
        node.pendingBootstraps.lookup transactionId = none
  strange : ∀ transactionId, firstWithId transactionId 0 names = none →
    node.pendingBootstraps.lookup transactionId = none

theorem waiting_startedNode {resolves : ByteString → Bool}
    (resolved : ∀ name ∈ names, Resolves resolves name) :
    Waiting names [] (startedNode resolves names) where
  waits := by
    intro transactionId endpoint name found _
    rw [lookup_startedNode resolved, found]
    rfl
  settled := by
    rintro transactionId endpoint name - ⟨version, response, member⟩
    cases member
  strange := by
    intro transactionId none
    rw [lookup_startedNode resolved, none]
    rfl

variable {before : List Occurrence} {occurrence : Occurrence}

theorem settled_append_iff (endpoint : Nat) :
    Settled (before ++ [occurrence]) endpoint ↔ Settled before endpoint ∨
      ∃ version response,
        occurrence = .answer endpoint version (.response response) false := by
  constructor
  · rintro ⟨version, response, member⟩
    rcases List.mem_append.mp member with earlier | last
    · exact Or.inl ⟨version, response, earlier⟩
    · exact Or.inr ⟨version, response, (List.mem_singleton.mp last).symm⟩
  · rintro (⟨version, response, member⟩ | ⟨version, response, rfl⟩)
    · exact ⟨version, response, List.mem_append_left _ member⟩
    · exact ⟨version, response, List.mem_append_right _ List.mem_cons_self⟩

/-- The entries that wait are those that waited, when the table is as it was and
no response was taken. -/
theorem Waiting.unchanged (waiting : Waiting names before node)
    {after : MainlineDhtNode}
    (same : after.pendingBootstraps = node.pendingBootstraps)
    (noResponse : ∀ endpoint version response,
      occurrence ≠ .answer endpoint version (.response response) false) :
    Waiting names (before ++ [occurrence]) after := by
  have sameSettled (endpoint : Nat) :
      Settled (before ++ [occurrence]) endpoint ↔ Settled before endpoint := by
    rw [settled_append_iff]
    constructor
    · rintro (earlier | ⟨version, response, isResponse⟩)
      · exact earlier
      · exact (noResponse endpoint version response isResponse).elim
    · exact Or.inl
  constructor
  · intro transactionId endpoint name found unsettled
    rw [sameSettled] at unsettled
    rw [same]
    exact waiting.waits transactionId endpoint name found unsettled
  · intro transactionId endpoint name found settled
    rw [sameSettled] at settled
    rw [same]
    exact waiting.settled transactionId endpoint name found settled
  · intro transactionId none
    rw [same]
    exact waiting.strange transactionId none

/-- A response that the application took settles its bootstrap node, and no
other. -/
theorem Waiting.response (waiting : Waiting names before node) {endpoint : Nat}
    {name : ByteString}
    (isFirst : firstWithId (bootstrapId endpoint) 0 names = some (endpoint, name))
    (version : Option ByteString) (response : KrpcResponse)
    {after : MainlineDhtNode}
    (erased : after.pendingBootstraps =
      node.pendingBootstraps.erase (bootstrapId endpoint)) :
    Waiting names
      (before ++ [.answer endpoint version (.response response) false]) after := by
  have differs {transactionId other : ByteString} {first : Nat}
      (found : firstWithId transactionId 0 names = some (first, other))
      (unlike : first ≠ endpoint) : transactionId ≠ bootstrapId endpoint := by
    rintro rfl
    rw [isFirst] at found
    cases found
    exact unlike rfl
  constructor
  · intro transactionId first other found unsettled
    rw [settled_append_iff, not_or] at unsettled
    have unlike : first ≠ endpoint := by
      rintro rfl
      exact unsettled.2 ⟨version, response, rfl⟩
    rw [erased, AList.lookup_erase_ne (differs found unlike)]
    exact waiting.waits transactionId first other found unsettled.1
  · intro transactionId first other found settled
    rw [erased]
    by_cases same : transactionId = bootstrapId endpoint
    · rw [same, AList.lookup_erase]
    · rw [AList.lookup_erase_ne same]
      rw [settled_append_iff] at settled
      rcases settled with earlier | ⟨otherVersion, otherResponse, isAnswer⟩
      · exact waiting.settled transactionId first other found earlier
      · cases isAnswer
        exact (same (firstWithId_some found).1.symm).elim
  · intro transactionId none
    rw [erased]
    by_cases same : transactionId = bootstrapId endpoint
    · rw [same, AList.lookup_erase]
    · rw [AList.lookup_erase_ne same]
      exact waiting.strange transactionId none

/-- When the application is told what it should be told, the entries that are
not settled wait. -/
theorem waiting_step (waiting : Waiting names before node)
    (known : ∀ endpoint, occurrence.answerer = some endpoint →
      endpoint < names.length)
    (exact_notice : notice names occurrence.event node = expected names occurrence) :
    Waiting names (before ++ [occurrence]) (step occurrence.event node) := by
  by_cases silent : expected names occurrence = none
  · rw [silent] at exact_notice
    apply waiting.unchanged (pendingBootstraps_of_notice_none exact_notice)
    rintro endpoint version response rfl
    rw [expected, Option.map_eq_none_iff, List.getElem?_eq_none_iff] at silent
    exact absurd (known endpoint rfl) (Nat.not_lt.mpr silent)
  · obtain ⟨endpoint, version, response, throws, rfl⟩ : ∃ endpoint version response
        throws, occurrence = .answer endpoint version (.response response) throws := by
      cases occurrence with
      | answer endpoint version reply throws =>
          cases reply with
          | response response => exact ⟨endpoint, version, response, throws, rfl⟩
          | error error => exact (silent rfl).elim
      | handler handler => exact (silent rfl).elim
      | query now query => exact (silent rfl).elim
    have small : endpoint < names.length := known endpoint rfl
    have isName := List.getElem?_eq_getElem small
    have isNotice : ((node.pendingBootstraps.lookup (bootstrapId endpoint)).map
        fun name => ((firstWithId (bootstrapId endpoint) 0 names).map Prod.fst,
          name)) = some (some endpoint, names[endpoint]) := by
      rw [expected, isName] at exact_notice
      exact exact_notice
    obtain ⟨name, waits, isPair⟩ := Option.map_eq_some_iff.mp isNotice
    obtain ⟨⟨first, other⟩, isFirst, rfl⟩ :=
      Option.map_eq_some_iff.mp (Prod.mk.inj isPair).1
    have table := pendingBootstraps_response waits version response throws
    cases throws with
    | false => exact waiting.response isFirst version response table
    | true =>
        apply waiting.unchanged table
        intro other otherVersion otherResponse isAnswer
        cases isAnswer

/-- A response is from one of the first ten bootstrap nodes.  An error, or a
reply of any other origin, does not come under the identifier of one of them
before its response was taken. -/
def OrderlyReply (names : List ByteString) (before : List Occurrence) :
    Occurrence → Prop
  | .answer endpoint _ (.response _) _ => endpoint < 10
  | other => ∀ transactionId, repliesTo other.event = some transactionId →
      ∀ endpoint, endpoint < names.length → endpoint < 10 →
        bootstrapId endpoint = transactionId → Settled before endpoint

def Orderly (names : List ByteString) :
    List Occurrence → List Occurrence → Prop
  | _, [] => True
  | before, occurrence :: rest =>
      OrderlyReply names before occurrence ∧
        Orderly names (before ++ [occurrence]) rest

/-- Nobody is told of an event exactly when it comes under no identifier that
waits. -/
theorem notice_none_iff (waiting : Waiting names before node) (event : Event) :
    notice names event node = none ↔
      ∀ transactionId, repliesTo event = some transactionId →
        ∀ endpoint, endpoint < names.length → endpoint < 10 →
          bootstrapId endpoint = transactionId → Settled before endpoint := by
  constructor
  · rintro silent transactionId replies endpoint small oneDigit rfl
    rw [notice, replies, Option.bind_some, Option.map_eq_none_iff] at silent
    have found := firstWithId_bootstrapId small oneDigit
    rw [List.getElem?_eq_getElem small, Option.map_some] at found
    by_contra unsettled
    rw [waiting.waits _ _ _ found unsettled] at silent
    cases silent
  · intro settled
    unfold notice
    cases replies : repliesTo event with
    | none => rfl
    | some transactionId =>
        rw [Option.bind_some, Option.map_eq_none_iff]
        cases found : firstWithId transactionId 0 names with
        | none => exact waiting.strange transactionId found
        | some first =>
            obtain ⟨endpoint, name⟩ := first
            obtain ⟨isId, -, isName, -⟩ := firstWithId_some found
            obtain ⟨small, -⟩ := List.getElem?_eq_some_iff.mp isName
            exact waiting.settled transactionId endpoint name found
              (settled transactionId replies endpoint small
                (firstWithId_lt_ten found) isId)

/-- The application is told what it should be told exactly when the reply is
orderly. -/
theorem notice_expected_iff (waiting : Waiting names before node)
    (fresh : ∀ endpoint, occurrence.answerer = some endpoint →
      endpoint < names.length ∧ ¬ Settled before endpoint) :
    notice names occurrence.event node = expected names occurrence ↔
      OrderlyReply names before occurrence := by
  cases occurrence with
  | answer endpoint version reply throws =>
      cases reply with
      | response response =>
          obtain ⟨small, unsettled⟩ := fresh endpoint rfl
          have isName := List.getElem?_eq_getElem small
          rw [expected, isName, OrderlyReply]
          constructor
          · intro isNotice
            obtain ⟨name, -, isPair⟩ := Option.map_eq_some_iff.mp isNotice
            obtain ⟨⟨first, other⟩, isFirst, rfl⟩ :=
              Option.map_eq_some_iff.mp (Prod.mk.inj isPair).1
            exact firstWithId_lt_ten isFirst
          · intro oneDigit
            have found := firstWithId_bootstrapId small oneDigit
            rw [isName, Option.map_some] at found
            have waits := waiting.waits _ _ _ found unsettled
            rw [notice, Occurrence.event, BootstrapReply.payload, repliesTo,
              Option.bind_some, waits, found]
            rfl
      | error error => exact notice_none_iff waiting _
  | handler handler => exact notice_none_iff waiting _
  | query now query => exact notice_none_iff waiting _

theorem not_settled_of_distinct {occurrences : List Occurrence}
    (once : AnswerOnce names (before ++ occurrence :: occurrences)) (endpoint : Nat)
    (answers : occurrence.answerer = some endpoint) : ¬ Settled before endpoint := by
  rintro ⟨version, response, member⟩
  have distinct := once.distinct
  rw [List.filterMap_append, List.filterMap_cons, answers] at distinct
  have earlier : endpoint ∈ before.filterMap Occurrence.answerer :=
    List.mem_filterMap.mpr ⟨_, member, rfl⟩
  exact (List.nodup_append.mp distinct).2.2 endpoint earlier endpoint
    List.mem_cons_self rfl

/-- The application is told what it should be told, event by event. -/
def ExactNotices (names : List ByteString) (occurrences : List Occurrence)
    (node : MainlineDhtNode) : Prop :=
  RunsWithin (fun occurrence => step occurrence.event)
    (fun occurrence node =>
      notice names occurrence.event node = expected names occurrence)
    occurrences node

theorem exactNotices_iff_orderly {occurrences : List Occurrence}
    (waiting : Waiting names before node)
    (once : AnswerOnce names (before ++ occurrences)) :
    ExactNotices names occurrences node ↔ Orderly names before occurrences := by
  induction occurrences generalizing before node with
  | nil => exact Iff.rfl
  | cons occurrence rest ih =>
      have known (endpoint : Nat) (answers : occurrence.answerer = some endpoint) :
          endpoint < names.length := by
        apply once.known
        exact List.mem_filterMap.mpr
          ⟨occurrence, List.mem_append_right _ List.mem_cons_self, answers⟩
      have here := notice_expected_iff waiting fun endpoint answers =>
        ⟨known endpoint answers, not_settled_of_distinct once endpoint answers⟩
      have onceLater : AnswerOnce names ((before ++ [occurrence]) ++ rest) := by
        rw [List.append_assoc]
        exact once
      constructor
      · rintro ⟨isExact, later⟩
        exact ⟨here.mp isExact,
          (ih (waiting_step waiting known isExact) onceLater).mp later⟩
      · rintro ⟨orderly, later⟩
        have isExact := here.mpr orderly
        exact ⟨isExact,
          (ih (waiting_step waiting known isExact) onceLater).mpr later⟩

/-- What the application is told in the course of some events. -/
def notices (names : List ByteString) :
    List Occurrence → MainlineDhtNode → List (Option Nat × ByteString)
  | [], _ => []
  | occurrence :: rest, node =>
      (notice names occurrence.event node).toList ++
        notices names rest (step occurrence.event node)

/-- The application is told of a bootstrap node, with its name, exactly when it
answers with a response, and at most once. -/
structure Attributed (names : List ByteString) (occurrences : List Occurrence)
    (node : MainlineDhtNode) : Prop where
  exact_notices : ExactNotices names occurrences node
  once : ∀ endpoint,
    ((notices names occurrences node).map Prod.fst).count (some endpoint) ≤ 1

theorem count_expected_le (names : List ByteString) (occurrence : Occurrence)
    (endpoint : Nat) :
    ((expected names occurrence).toList.map Prod.fst).count (some endpoint) ≤
      occurrence.answerer.toList.count endpoint := by
  cases occurrence with
  | answer other version reply throws =>
      cases reply with
      | response response =>
          rw [expected]
          cases names[other]? with
          | none => exact Nat.zero_le _
          | some name => simp [Occurrence.answerer, List.count_cons]
      | error error => exact Nat.zero_le _
  | handler handler => exact Nat.zero_le _
  | query now query => exact Nat.zero_le _

theorem count_notices_le {occurrences : List Occurrence}
    (exactly : ExactNotices names occurrences node) (endpoint : Nat) :
    ((notices names occurrences node).map Prod.fst).count (some endpoint) ≤
      (occurrences.filterMap Occurrence.answerer).count endpoint := by
  induction occurrences generalizing node with
  | nil => exact Nat.le_refl _
  | cons occurrence rest ih =>
      have answerers : (occurrence :: rest).filterMap Occurrence.answerer =
          occurrence.answerer.toList ++ rest.filterMap Occurrence.answerer := by
        rw [List.filterMap_cons]
        cases occurrence.answerer with
        | none => rfl
        | some other => rfl
      rw [notices, List.map_append, List.count_append, exactly.1, answerers,
        List.count_append]
      exact Nat.add_le_add (count_expected_le names occurrence endpoint)
        (ih exactly.2)

end Notices

/-- After bootstrap nodes that resolve were added and the node was started,
replies are taken for the right bootstrap nodes exactly when they are orderly. -/
theorem bootstrapReplies_attributed_iff {resolves : ByteString → Bool}
    {names : List ByteString} (resolved : ∀ name ∈ names, Resolves resolves name)
    {occurrences : List Occurrence} (once : AnswerOnce names occurrences) :
    Attributed names occurrences (startedNode resolves names) ↔
      Orderly names [] occurrences := by
  rw [← exactNotices_iff_orderly (waiting_startedNode resolved) once]
  constructor
  · exact Attributed.exact_notices
  · intro exactly
    refine ⟨exactly, ?_⟩
    intro endpoint
    exact Nat.le_trans (count_notices_le exactly endpoint)
      (List.nodup_iff_count_le_one.mp once.distinct endpoint)

/-- Some bootstrap nodes. -/
def someNames (count : Nat) : List ByteString :=
  (List.range count).map fun number =>
    ascii "10.0.0." ++ decimal number ++ ascii ":1"

theorem someNames_resolve (count : Nat) :
    ∀ name ∈ someNames count, Resolves (fun _ => true) name := by
  intro name member
  obtain ⟨number, -, rfl⟩ := List.mem_map.mp member
  exact ⟨List.mem_append_right _ (by decide), rfl⟩

/-- Two bootstrap nodes answer in the other order. -/
theorem bootstrapReplies_attributed_someNames :
    Attributed (someNames 2)
      [.answer 1 none (.response {}) false, .answer 0 none (.response {}) true]
      (startedNode (fun _ => true) (someNames 2)) := by
  apply (bootstrapReplies_attributed_iff (someNames_resolve 2)
    ⟨by decide, by decide⟩).mpr
  have oneDigit : 1 < 10 ∧ 0 < 10 := by decide
  exact ⟨oneDigit.1, oneDigit.2, trivial⟩

/-- An error is taken for an answer, and the eleventh bootstrap node for the
first. -/
theorem bootstrapReplies_notAttributed :
    (∀ name ∈ someNames 11, Resolves (fun _ => true) name) ∧
      (AnswerOnce (someNames 11) [.answer 0 none (.error {}) false] ∧
        ¬ Attributed (someNames 11) [.answer 0 none (.error {}) false]
          (startedNode (fun _ => true) (someNames 11))) ∧
      AnswerOnce (someNames 11) [.answer 10 none (.response {}) false] ∧
        ¬ Attributed (someNames 11) [.answer 10 none (.response {}) false]
          (startedNode (fun _ => true) (someNames 11)) := by
  have resolved := someNames_resolve 11
  have errorOnce : AnswerOnce (someNames 11) [.answer 0 none (.error {}) false] :=
    ⟨by decide, by decide⟩
  have eleventhOnce :
      AnswerOnce (someNames 11) [.answer 10 none (.response {}) false] :=
    ⟨by decide, by decide⟩
  refine ⟨resolved, ⟨errorOnce, ?_⟩, eleventhOnce, ?_⟩
  · intro attributed
    have orderly := (exactNotices_iff_orderly (waiting_startedNode resolved)
      errorOnce).mp attributed.exact_notices
    obtain ⟨version, response, member⟩ :=
      orderly.1 (bootstrapId 0) rfl 0 (by decide) (by decide) rfl
    cases member
  · intro attributed
    have orderly := (exactNotices_iff_orderly (waiting_startedNode resolved)
      eleventhOnce).mp attributed.exact_notices
    exact absurd orderly.1 (by decide : ¬ 10 < 10)

end Kademlia

end Blocxxi
