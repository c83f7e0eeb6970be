import Blocxxi.ConnectionLogs
import Blocxxi.StepMachineRuns
import Mathlib.Data.List.Induction

/-!
# The order of messages on a connection

The client greets a peer with its version, answers what has to be answered
before it goes on, and asks for headers or blocks once it has received a version
and its acknowledgement.  A log is lawful if each of its events is allowed after
the events before it, and the logs of all connections are lawful, whatever the
peers send and whichever sends fail.
-/

namespace Blocxxi

namespace Bitcoin

open Blocxxi.Core Cxx ByteText

/-- An attempt to ask for headers or blocks. -/
def WireEvent.isRequest : WireEvent → Bool
  | .received _ => false
  | .attempted command _ _ =>
      command = ascii "getheaders" || command = ascii "getdata"

def requested (log : List WireEvent) : Bool := log.any WireEvent.isRequest

/-- A message with this command was received. -/
def Heard (command : ByteString) (log : List WireEvent) : Prop :=
  ∃ message, WireEvent.received message ∈ log ∧ message.command = command

def NoFailure (log : List WireEvent) : Prop :=
  ∀ command payload, WireEvent.attempted command payload false ∉ log

/-- The command and the payload that answer a message.  A version is answered
only during the handshake, before anything was requested. -/
def replyTo (requested : Bool) (message : DecodedMessage) :
    Option (ByteString × ByteString) :=
  if message.command = ascii "ping" then
    some (ascii "pong", message.payload.items)
  else if message.command = ascii "version" ∧ requested = false then
    some (ascii "verack", [])
  else none

/-- The reply to the last event, if that was a message to be answered. -/
def owedReply (log : List WireEvent) : Option (ByteString × ByteString) :=
  match log.getLast? with
  | some (.received message) => replyTo (requested log) message
  | _ => none

/-- What may happen next on a connection. -/
def Allowed (before : List WireEvent) : WireEvent → Prop
  | .received _ => before ≠ [] ∧ NoFailure before ∧ owedReply before = none
  | .attempted command payload sent =>
      NoFailure before ∧
        (before = [] ∧ command = ascii "version" ∨
          owedReply before = some (command, payload) ∨
          (WireEvent.attempted command payload sent).isRequest = true ∧
            owedReply before = none ∧ requested before = false ∧
            Heard (ascii "version") before ∧ Heard (ascii "verack") before)

/-- Each event is allowed after those before it. -/
def Lawful (log : List WireEvent) : Prop :=
  StepMachine.RunsWithin (fun event before => before ++ [event])
    (fun event before => Allowed before event) log []

theorem run_concat (log before : List WireEvent) :
    StepMachine.run (fun event before => before ++ [event]) log before =
      before ++ log := by
  induction log generalizing before with
  | nil => simp [StepMachine.run]
  | cons event rest ih => simp [StepMachine.run, ih]

theorem lawful_nil : Lawful [] := trivial

theorem lawful_concat {log : List WireEvent} {event : WireEvent} :
    Lawful (log ++ [event]) ↔ Lawful log ∧ Allowed log event := by
  simp [Lawful, StepMachine.runsWithin_append, StepMachine.RunsWithin, run_concat]

theorem Lawful.allowed {log before after : List WireEvent} {event : WireEvent}
    (lawful : Lawful log) (split : log = before ++ event :: after) :
    Allowed before event := by
  have allowed := StepMachine.runsWithin_iff_forall.mp lawful before event after split
  rwa [run_concat, List.nil_append] at allowed

@[simp] theorem requested_concat (log : List WireEvent) (event : WireEvent) :
    requested (log ++ [event]) = (requested log || event.isRequest) := by
  simp [requested]

@[simp] theorem owedReply_received (log : List WireEvent) (message : DecodedMessage) :
    owedReply (log ++ [.received message]) = replyTo (requested log) message := by
  simp [owedReply, WireEvent.isRequest]

@[simp] theorem owedReply_attempted (log : List WireEvent)
    (command payload : ByteString) (sent : Bool) :
    owedReply (log ++ [.attempted command payload sent]) = none := by
  simp [owedReply]

theorem replyTo_eq_some_iff {requested : Bool} {message : DecodedMessage}
    {command payload : ByteString} :
    replyTo requested message = some (command, payload) ↔
      message.command = ascii "ping" ∧ command = ascii "pong" ∧
          payload = message.payload.items ∨
        message.command = ascii "version" ∧ requested = false ∧
          command = ascii "verack" ∧ payload = [] := by
  have other : ascii "version" ≠ ascii "ping" := by decide
  unfold replyTo
  split
  · next isPing => simp [isPing, other.symm, eq_comm]
  · next notPing =>
      split
      · next isVersion => simp [isVersion, other, eq_comm]
      · next notVersion =>
          simp only [reduceCtorEq, notPing, false_and, false_or, false_iff]
          rintro ⟨isVersion, fresh, -⟩
          exact notVersion ⟨isVersion, fresh⟩

/-- A reply is owed for the message that was received last. -/
theorem owedReply_eq_some {log : List WireEvent} {reply : ByteString × ByteString}
    (owed : owedReply log = some reply) :
    ∃ earlier message, log = earlier ++ [.received message] ∧
      replyTo (requested earlier) message = some reply := by
  unfold owedReply at owed
  split at owed
  · next message last =>
      obtain ⟨earlier, rfl⟩ := List.getLast?_eq_some_iff.mp last
      refine ⟨earlier, message, rfl, ?_⟩
      simpa [WireEvent.isRequest] using owed
  · cases owed

theorem noFailure_received {log : List WireEvent} {message : DecodedMessage} :
    NoFailure (log ++ [.received message]) ↔ NoFailure log := by
  simp [NoFailure]

theorem noFailure_attempted {log : List WireEvent} {command payload : ByteString}
    {sent : Bool} :
    NoFailure (log ++ [.attempted command payload sent]) ↔
      NoFailure log ∧ sent = true := by
  constructor
  · intro noFailure
    refine ⟨fun other argument member =>
      noFailure other argument (List.mem_append_left _ member), ?_⟩
    cases sent with
    | true => rfl
    | false => exact absurd List.mem_concat_self (noFailure command payload)
  · rintro ⟨noFailure, rfl⟩
    simpa [NoFailure] using noFailure

theorem Heard.append {command : ByteString} {log : List WireEvent}
    (heard : Heard command log) (events : List WireEvent) :
    Heard command (log ++ events) := by
  obtain ⟨message, member, named⟩ := heard
  exact ⟨message, List.mem_append_left _ member, named⟩

theorem heard_concat (log : List WireEvent) (message : DecodedMessage) :
    Heard message.command (log ++ [.received message]) :=
  ⟨message, List.mem_append_right _ List.mem_cons_self, rfl⟩

/-- The order of the messages on a connection is kept: what the client attempts,
when, and how often. -/
structure HandshakeSafe (log : List WireEvent) : Prop where
  versionFirst : ∃ payload sent rest,
    log = .attempted (ascii "version") payload sent :: rest
  requestAfterHandshake : ∀ before event after, log = before ++ event :: after →
    event.isRequest = true →
      Heard (ascii "version") before ∧ Heard (ascii "verack") before
  requestOnce : log.countP WireEvent.isRequest ≤ 1
  -- one verack for each version of the handshake
  versionAnswered : ∀ before message after,
    log = before ++ .received message :: after →
      message.command = ascii "version" → requested before = false →
        ∃ sent rest, after = .attempted (ascii "verack") [] sent :: rest
  verackAnswers : ∀ before payload sent after,
    log = before ++ .attempted (ascii "verack") payload sent :: after →
      ∃ earlier message, before = earlier ++ [.received message] ∧
        message.command = ascii "version" ∧ requested earlier = false
  -- one pong for each ping
  pingAnswered : ∀ before message after,
    log = before ++ .received message :: after → message.command = ascii "ping" →
      ∃ sent rest,
        after = .attempted (ascii "pong") message.payload.items sent :: rest
  pongAnswers : ∀ before payload sent after,
    log = before ++ .attempted (ascii "pong") payload sent :: after →
      ∃ earlier message, before = earlier ++ [.received message] ∧
        message.command = ascii "ping" ∧ message.payload.items = payload
  failureEnds : ∀ before command payload after,
    log = before ++ .attempted command payload false :: after → after = []

/-- The messages that were received, in their order. -/
def receivedMessages (log : List WireEvent) : List DecodedMessage :=
  log.filterMap fun
    | .received message => some message
    | .attempted _ _ _ => none

/-- A log of a connection that may end here: no reply is owed. -/
structure Ended (incoming : List DecodedMessage) (log : List WireEvent) : Prop where
  lawful : Lawful log
  greeted : log ≠ []
  settled : owedReply log = none
  heard : receivedMessages log <+: incoming

theorem Allowed.noFailure {before : List WireEvent} {event : WireEvent}
    (allowed : Allowed before event) : NoFailure before := by
  cases event with
  | received message => exact allowed.2.1
  | attempted command payload sent => exact allowed.1

/-- If a reply is owed, it is the only thing that may happen. -/
theorem Allowed.reply {before : List WireEvent} {event : WireEvent}
    {command payload : ByteString} (allowed : Allowed before event)
    (owed : owedReply before = some (command, payload)) :
    ∃ sent, event = .attempted command payload sent := by
  cases event with
  | received message =>
      obtain ⟨-, -, nothing⟩ := allowed
      rw [owed] at nothing
      cases nothing
  | attempted other argument sent =>
      obtain ⟨-, ⟨rfl, -⟩ | same | ⟨-, nothing, -⟩⟩ := allowed
      · cases owed
      · rw [owed] at same
        cases same
        exact ⟨sent, rfl⟩
      · rw [owed] at nothing
        cases nothing

theorem not_isRequest_of_reply {requested : Bool} {message : DecodedMessage}
    {command payload : ByteString} {sent : Bool}
    (reply : replyTo requested message = some (command, payload)) :
    (WireEvent.attempted command payload sent).isRequest = false := by
  rcases replyTo_eq_some_iff.mp reply with ⟨-, rfl, -⟩ | ⟨-, -, rfl, -⟩ <;> rfl

theorem Allowed.request {before : List WireEvent} {event : WireEvent}
    (allowed : Allowed before event) (isRequest : event.isRequest = true) :
    requested before = false ∧ Heard (ascii "version") before ∧
      Heard (ascii "verack") before := by
  cases event with
  | received message => cases isRequest
  | attempted command payload sent =>
      obtain ⟨-, ⟨-, rfl⟩ | owed | ⟨-, -, fresh, version, verack⟩⟩ := allowed
      · cases isRequest
      · obtain ⟨earlier, message, -, reply⟩ := owedReply_eq_some owed
        rw [not_isRequest_of_reply reply] at isRequest
        cases isRequest
      · exact ⟨fresh, version, verack⟩

/-- A command that is neither the greeting nor a request is a reply. -/
theorem Allowed.owed {before : List WireEvent} {command payload : ByteString}
    {sent : Bool} (allowed : Allowed before (.attempted command payload sent))
    (noGreeting : command ≠ ascii "version")
    (noRequest : (WireEvent.attempted command payload sent).isRequest = false) :
    owedReply before = some (command, payload) := by
  obtain ⟨-, ⟨-, greeting⟩ | owed | ⟨isRequest, -⟩⟩ := allowed
  · exact absurd greeting noGreeting
  · exact owed
  · rw [noRequest] at isRequest
    cases isRequest

theorem Lawful.requestOnce {log : List WireEvent} (lawful : Lawful log) :
    log.countP WireEvent.isRequest ≤ 1 := by
  induction log using List.reverseRecOn with
  | nil => exact Nat.zero_le 1
  | append_singleton before event ih =>
      obtain ⟨beforeLawful, allowed⟩ := lawful_concat.mp lawful
      rw [List.countP_append, List.countP_singleton]
      by_cases isRequest : event.isRequest = true
      · obtain ⟨fresh, -⟩ := allowed.request isRequest
        have none : before.countP WireEvent.isRequest = 0 := by
          simpa [requested, List.countP_eq_zero] using fresh
        rw [none, if_pos isRequest]
      · rw [if_neg isRequest]
        exact ih beforeLawful

/-- The reply that a message is owed follows it. -/
theorem Ended.answered {log before after : List WireEvent} {message : DecodedMessage}
    {command payload : ByteString} {incoming : List DecodedMessage}
    (ended : Ended incoming log)
    (split : log = before ++ .received message :: after)
    (reply : replyTo (requested before) message = some (command, payload)) :
    ∃ sent rest, after = .attempted command payload sent :: rest := by
  cases after with
  | nil =>
      have settled := ended.settled
      rw [split, owedReply_received, reply] at settled
      cases settled
  | cons event rest =>
      have behind : log = (before ++ [.received message]) ++ event :: rest := by
        rw [split, List.append_assoc, List.singleton_append]
      obtain ⟨sent, rfl⟩ := (ended.lawful.allowed behind).reply
        (by rw [owedReply_received, reply])
      exact ⟨sent, rest, rfl⟩

/-- A reply follows the message that it answers. -/
theorem Ended.answers {log before after : List WireEvent}
    {command payload : ByteString} {sent : Bool} {incoming : List DecodedMessage}
    (ended : Ended incoming log)
    (split : log = before ++ .attempted command payload sent :: after)
    (noGreeting : command ≠ ascii "version")
    (noRequest : (WireEvent.attempted command payload sent).isRequest = false) :
    ∃ earlier message, before = earlier ++ [.received message] ∧
      replyTo (requested earlier) message = some (command, payload) :=
  owedReply_eq_some ((ended.lawful.allowed split).owed noGreeting noRequest)

theorem Ended.handshakeSafe {incoming : List DecodedMessage} {log : List WireEvent}
    (ended : Ended incoming log) : HandshakeSafe log where
  versionFirst := by
    cases log with
    | nil => exact absurd rfl ended.greeted
    | cons event rest =>
        have allowed : Allowed [] event := ended.lawful.allowed rfl
        cases event with
        | received message => exact absurd rfl allowed.1
        | attempted command payload sent =>
            obtain ⟨-, ⟨-, rfl⟩ | owed | ⟨-, -, -, ⟨message, member, -⟩, -⟩⟩ := allowed
            · exact ⟨payload, sent, rest, rfl⟩
            · cases owed
            · cases member
  requestAfterHandshake before event after split isRequest :=
    ((ended.lawful.allowed split).request isRequest).2
  requestOnce := ended.lawful.requestOnce
  versionAnswered before message after split isVersion fresh :=
    ended.answered split
      (replyTo_eq_some_iff.mpr (.inr ⟨isVersion, fresh, rfl, rfl⟩))
  verackAnswers before payload sent after split := by
    obtain ⟨earlier, message, rfl, reply⟩ := ended.answers split (by decide) (by rfl)
    rcases replyTo_eq_some_iff.mp reply with
      ⟨-, impossible, -⟩ | ⟨isVersion, fresh, -⟩
    · exact absurd impossible (by decide)
    · exact ⟨earlier, message, rfl, isVersion, fresh⟩
  pingAnswered before message after split isPing :=
    ended.answered split (replyTo_eq_some_iff.mpr (.inl ⟨isPing, rfl, rfl⟩))
  pongAnswers before payload sent after split := by
    obtain ⟨earlier, message, rfl, reply⟩ := ended.answers split (by decide) (by rfl)
    rcases replyTo_eq_some_iff.mp reply with
      ⟨isPing, -, same⟩ | ⟨-, -, impossible, -⟩
    · exact ⟨earlier, message, rfl, isPing, same.symm⟩
    · exact absurd impossible (by decide)
  failureEnds before command payload after split := by
    cases after with
    | nil => rfl
    | cons event rest =>
        have behind : log =
            (before ++ [.attempted command payload false]) ++ event :: rest := by
          rw [split, List.append_assoc, List.singleton_append]
        obtain ⟨-, sent⟩ :=
          noFailure_attempted.mp (ended.lawful.allowed behind).noFailure
        cases sent

/-- A log of a connection over which the client may go on, with the messages
that are left to receive. -/
structure Listening (incoming rest : List DecodedMessage) (log : List WireEvent) :
    Prop extends Ended incoming log where
  noFailure : NoFailure log
  left : receivedMessages log ++ rest = incoming

section Steps

variable {incoming rest : List DecodedMessage} {log : List WireEvent}

/-- What is allowed may be attempted, and if it is sent, the client goes on. -/
theorem listening_attempted {command payload : ByteString} {sent : Bool}
    (lawful : Lawful log) (left : receivedMessages log ++ rest = incoming)
    (allowed : Allowed log (.attempted command payload sent)) :
    Ended incoming (log ++ [.attempted command payload sent]) ∧
      (sent = true →
        Listening incoming rest (log ++ [.attempted command payload sent])) := by
  have same : receivedMessages (log ++ [.attempted command payload sent]) =
      receivedMessages log := by
    simp [receivedMessages]
  have ended : Ended incoming (log ++ [.attempted command payload sent]) :=
    { lawful := lawful_concat.mpr ⟨lawful, allowed⟩
      greeted := by simp
      settled := owedReply_attempted log command payload sent
      heard := same ▸ ⟨rest, left⟩ }
  refine ⟨ended, fun isSent => ⟨ended, ?_, same ▸ left⟩⟩
  exact noFailure_attempted.mpr ⟨allowed.noFailure, isSent⟩

theorem greet (incoming : List DecodedMessage) (payload : ByteString) (sent : Bool) :
    Ended incoming ([] ++ [.attempted (ascii "version") payload sent]) ∧
      (sent = true → Listening incoming incoming
        ([] ++ [.attempted (ascii "version") payload sent])) :=
  listening_attempted lawful_nil rfl ⟨nofun, .inl ⟨rfl, rfl⟩⟩

theorem Listening.lawful_received {message : DecodedMessage}
    (listening : Listening incoming (message :: rest) log) :
    Lawful (log ++ [.received message]) :=
  lawful_concat.mpr
    ⟨listening.lawful, listening.greeted, listening.noFailure, listening.settled⟩

theorem Listening.left_received {message : DecodedMessage}
    (listening : Listening incoming (message :: rest) log) :
    receivedMessages (log ++ [.received message]) ++ rest = incoming := by
  rw [← listening.left]
  simp [receivedMessages]

/-- A message that needs no answer. -/
theorem Listening.receive {message : DecodedMessage}
    (listening : Listening incoming (message :: rest) log)
    (noReply : replyTo (requested log) message = none) :
    Listening incoming rest (log ++ [.received message]) where
  lawful := listening.lawful_received
  greeted := by simp
  settled := by rw [owedReply_received, noReply]
  heard := ⟨rest, listening.left_received⟩
  noFailure := noFailure_received.mpr listening.noFailure
  left := listening.left_received

/-- A message and its answer. -/
theorem Listening.answer {message : DecodedMessage} {command payload : ByteString}
    {sent : Bool} (listening : Listening incoming (message :: rest) log)
    (reply : replyTo (requested log) message = some (command, payload)) :
    Ended incoming
        (log ++ [.received message] ++ [.attempted command payload sent]) ∧
      (sent = true → Listening incoming rest
        (log ++ [.received message] ++ [.attempted command payload sent])) := by
  apply listening_attempted listening.lawful_received listening.left_received
  refine ⟨noFailure_received.mpr listening.noFailure, .inr (.inl ?_)⟩
  rw [owedReply_received, reply]

theorem requested_answered {message : DecodedMessage}
    {command payload : ByteString} {sent : Bool}
    (reply : replyTo (requested log) message = some (command, payload)) :
    requested (log ++ [.received message] ++ [.attempted command payload sent]) =
      requested log := by
  rw [requested_concat, requested_concat, not_isRequest_of_reply reply]
  simp [WireEvent.isRequest]

/-- The handshake is done, and nothing was requested. -/
structure Greeted (incoming rest : List DecodedMessage) (log : List WireEvent) :
    Prop extends Listening incoming rest log where
  fresh : requested log = false
  version : Heard (ascii "version") log
  verack : Heard (ascii "verack") log

theorem Greeted.request (greeted : Greeted incoming rest log)
    (command payload : ByteString) (sent : Bool)
    (isRequest : (WireEvent.attempted command payload sent).isRequest = true) :
    Ended incoming (log ++ [.attempted command payload sent]) ∧
      (sent = true →
        Listening incoming rest (log ++ [.attempted command payload sent])) :=
  listening_attempted greeted.lawful greeted.left
    ⟨greeted.noFailure, .inr (.inr ⟨isRequest, greeted.settled, greeted.fresh,
      greeted.version, greeted.verack⟩)⟩

end Steps

section Loops

variable {incoming rest : List DecodedMessage} {log : List WireEvent}

/-- The state of the handshake is what its log tells. -/
structure Shaking (incoming rest : List DecodedMessage) (state : Handshake)
    (log : List WireEvent) : Prop extends Listening incoming rest log where
  fresh : requested log = false
  version : state.sawVersion = true → Heard (ascii "version") log
  verack : state.sawVerack = true → Heard (ascii "verack") log

theorem Shaking.finished {state : Handshake} (shaking : Shaking incoming rest state log)
    (done : (state.sawVersion && state.sawVerack) = true) :
    Greeted incoming rest log :=
  have ⟨sawVersion, sawVerack⟩ := Bool.and_eq_true_iff.mp done
  { shaking.toListening with
    fresh := shaking.fresh
    version := shaking.version sawVersion
    verack := shaking.verack sawVerack }

/-- A message that needs no answer tells the handshake at most more. -/
theorem Shaking.receive {state : Handshake} {message : DecodedMessage}
    (shaking : Shaking incoming (message :: rest) state log)
    (noReply : replyTo (requested log) message = none) :
    Shaking incoming rest state (log ++ [.received message]) :=
  { shaking.toListening.receive noReply with
    fresh := by simp [shaking.fresh, WireEvent.isRequest]
    version := fun saw => (shaking.version saw).append _
    verack := fun saw => (shaking.verack saw).append _ }

theorem Shaking.answer {state : Handshake} {message : DecodedMessage}
    {command payload : ByteString} {sent : Bool}
    (shaking : Shaking incoming (message :: rest) state log)
    (reply : replyTo (requested log) message = some (command, payload)) :
    Ended incoming
        (log ++ [.received message] ++ [.attempted command payload sent]) ∧
      (sent = true → Shaking incoming rest state
        (log ++ [.received message] ++ [.attempted command payload sent])) := by
  obtain ⟨ended, goesOn⟩ := shaking.toListening.answer reply
  refine ⟨ended, fun isSent => ?_⟩
  exact
    { goesOn isSent with
      fresh := (requested_answered reply).trans shaking.fresh
      version := fun saw => ((shaking.version saw).append _).append _
      verack := fun saw => ((shaking.verack saw).append _).append _ }

theorem awaitHandshakeLogged_listens {state : Handshake}
    (shaking : Shaking incoming rest state log) (socket : Socket) :
    let outcome := awaitHandshakeLogged rest socket state log
    Ended incoming outcome.2 ∧ (outcome.1.1 = true →
      Greeted incoming outcome.1.2.1.incoming outcome.2) := by
  induction rest generalizing socket state log with
  | nil => exact ⟨shaking.toEnded, shaking.finished⟩
  | cons message rest ih =>
      simp only [awaitHandshakeLogged]
      by_cases done : (state.sawVersion && state.sawVerack) = true
      · rw [if_pos done]
        exact ⟨shaking.toEnded, fun _ => shaking.finished done⟩
      rw [if_neg done]
      by_cases isVersion : message.command = ascii "version"
      · rw [if_pos isVersion]
        have reply : replyTo (requested log) message = some (ascii "verack", []) :=
          replyTo_eq_some_iff.mpr (.inr ⟨isVersion, shaking.fresh, rfl, rfl⟩)
        split
        · next answered =>
            refine ih ?_ _
            exact
              { (shaking.answer reply).2 answered with
                version := fun _ => isVersion ▸ (heard_concat log message).append _ }
        · exact ⟨(shaking.answer reply).1, fun isDone => absurd isDone Bool.false_ne_true⟩
      rw [if_neg isVersion]
      by_cases isPing : message.command = ascii "ping"
      · rw [if_pos isPing]
        have reply : replyTo (requested log) message =
            some (ascii "pong", message.payload.items) :=
          replyTo_eq_some_iff.mpr (.inl ⟨isPing, rfl, rfl⟩)
        split
        · next answered =>
            refine ih ?_ _
            exact { (shaking.answer reply).2 answered with }
        · exact ⟨(shaking.answer reply).1, fun isDone => absurd isDone Bool.false_ne_true⟩
      rw [if_neg isPing]
      have noReply : replyTo (requested log) message = none := by
        simp [replyTo, isVersion, isPing]
      split
      · next isVerack =>
          refine ih ?_ _
          exact
            { shaking.receive noReply with
              verack := fun _ => isVerack ▸ heard_concat log message }
      · refine ih ?_ _
        exact { shaking.receive noReply with }

theorem completeVersionHandshakeLogged_listens (address : Address) (port : UInt16)
    (now : UInt64) (socket : Socket) :
    let outcome := completeVersionHandshakeLogged address port now socket
    Ended socket.incoming outcome.2 ∧ (outcome.1.1 = true →
      Greeted socket.incoming outcome.1.2.1.incoming outcome.2) := by
  simp only [completeVersionHandshakeLogged]
  split
  · next sent =>
      have listening := (greet socket.incoming
        (encodeVersionPayload address port now) _).2 sent
      refine awaitHandshakeLogged_listens ?_ _
      exact
        { listening with
          fresh := rfl
          version := fun saw => absurd saw Bool.false_ne_true
          verack := fun saw => absurd saw Bool.false_ne_true }
  · exact ⟨(greet socket.incoming _ _).1, fun isDone => absurd isDone Bool.false_ne_true⟩

/-- The log behind a read: a message that was read comes last. -/
structure ReadsOn (incoming : List DecodedMessage) (log : List WireEvent)
    (next : (Option DecodedMessage × Socket × List ByteString) × List WireEvent) :
    Prop where
  ended : Ended incoming next.2
  message : ∀ message, next.1.1 = some message →
    Listening incoming next.1.2.1.incoming next.2 ∧
      ∃ before, log <+: before ∧ next.2 = before ++ [.received message]

theorem Ended.readsNothing {logged : List WireEvent} (ended : Ended incoming logged)
    (socket : Socket) (trace : List ByteString) :
    ReadsOn incoming log ((none, socket, trace), logged) :=
  ⟨ended, fun _ read => absurd read (Option.some_ne_none _).symm⟩

theorem readNextNonPingLogged_readsOn (listening : Listening incoming rest log)
    (asked : requested log = true) (socket : Socket) (trace : List ByteString) :
    ReadsOn incoming log (readNextNonPingLogged rest socket trace log) := by
  induction rest generalizing socket trace log with
  | nil => exact listening.toEnded.readsNothing _ trace
  | cons message rest ih =>
      simp only [readNextNonPingLogged]
      by_cases isPing : message.command = ascii "ping"
      · rw [if_neg (not_not.mpr isPing)]
        have reply : replyTo (requested log) message =
            some (ascii "pong", message.payload.items) :=
          replyTo_eq_some_iff.mpr (.inl ⟨isPing, rfl, rfl⟩)
        split
        · next answered =>
            obtain ⟨ended, next⟩ := ih ((listening.answer reply).2 answered)
              ((requested_answered reply).trans asked) _ _
            refine ⟨ended, fun found read => ?_⟩
            obtain ⟨goesOn, before, extends_, last⟩ := next found read
            refine ⟨goesOn, before, ?_, last⟩
            rw [List.append_assoc] at extends_
            exact (List.prefix_append _ _).trans extends_
        · exact (listening.answer reply).1.readsNothing _ _
      · rw [if_pos isPing]
        have noReply : replyTo (requested log) message = none := by
          simp [replyTo, isPing, asked]
        have goesOn := listening.receive noReply
        refine ⟨goesOn.toEnded, fun found read => ?_⟩
        cases read
        exact ⟨goesOn, log, List.prefix_rfl, rfl⟩

theorem requested_of_shorter {before : List WireEvent} (asked : requested log = true)
    (extends_ : log <+: before) : requested before = true := by
  obtain ⟨events, rfl⟩ := extends_
  rw [requested, List.any_append, Bool.or_eq_true]
  exact .inl asked

/-- The log behind the wait for headers: the message that carries them comes
last. -/
structure AwaitsHeaders (incoming : List DecodedMessage) (log : List WireEvent)
    (outcome : (Option (Span UInt8) × List ByteString) × List WireEvent) : Prop where
  ended : Ended incoming outcome.2
  received : ∀ payload, outcome.1.1 = some payload →
    ∃ before message, log <+: before ∧ outcome.2 = before ++ [.received message] ∧
      message.command = ascii "headers" ∧ message.payload = payload

theorem Ended.awaitsNothing {logged : List WireEvent} (ended : Ended incoming logged)
    (trace : List ByteString) :
    AwaitsHeaders incoming log ((none, trace), logged) :=
  ⟨ended, fun _ read => absurd read (Option.some_ne_none _).symm⟩

theorem awaitHeadersLogged_awaits (passes : Nat) (socket : Socket)
    (listening : Listening incoming socket.incoming log)
    (asked : requested log = true) (trace : List ByteString) :
    AwaitsHeaders incoming log (awaitHeadersLogged passes socket trace log) := by
  induction passes generalizing socket trace log with
  | zero => exact listening.toEnded.awaitsNothing trace
  | succ passes ih =>
      have reads := readNextNonPingLogged_readsOn listening asked socket trace
      unfold awaitHeadersLogged readNextNonPingMessageLogged
      generalize readNextNonPingLogged socket.incoming socket trace log = next at reads
      obtain ⟨⟨_ | message, after, traced⟩, logged⟩ := next
      · exact reads.ended.awaitsNothing _
      obtain ⟨goesOn, before, extends_, last⟩ := reads.message message rfl
      dsimp only at goesOn last ⊢
      split
      · next isHeaders =>
          refine ⟨goesOn.toEnded, fun payload read => ?_⟩
          cases read
          exact ⟨before, message, extends_, last, isHeaders, rfl⟩
      · have longer : log <+: logged :=
          last ▸ extends_.trans (List.prefix_append before _)
        obtain ⟨ended, received⟩ :=
          ih after goesOn (requested_of_shorter asked longer) traced
        refine ⟨ended, fun payload read => ?_⟩
        obtain ⟨earlier, found, further, rest⟩ := received payload read
        exact ⟨earlier, found, longer.trans further, rest⟩

theorem receiveBlocksLogged_ended (doubleSha256 : ByteString → Hash256)
    (wanted passes : Nat) (socket : Socket) (result : SignetBlocksResult)
    (listening : Listening incoming socket.incoming log)
    (asked : requested log = true) :
    Ended incoming
      (receiveBlocksLogged doubleSha256 wanted passes socket result log).2 := by
  induction passes generalizing socket result log with
  | zero => exact listening.toEnded
  | succ passes ih =>
      have reads :=
        readNextNonPingLogged_readsOn listening asked socket result.commandTrace
      unfold receiveBlocksLogged readNextNonPingMessageLogged
      generalize readNextNonPingLogged socket.incoming socket result.commandTrace
        log = next at reads
      split
      · obtain ⟨⟨_ | message, after, traced⟩, logged⟩ := next
        · exact reads.ended
        obtain ⟨goesOn, before, extends_, last⟩ := reads.message message rfl
        dsimp only at goesOn last ⊢
        have stillAsked : requested logged = true :=
          requested_of_shorter asked
            (last ▸ extends_.trans (List.prefix_append before _))
        split
        · split
          · exact goesOn.toEnded
          · exact goesOn.toEnded
          · exact ih _ _ goesOn stillAsked
        · exact ih _ _ goesOn stillAsked
      · exact listening.toEnded

end Loops

/-- The last message of the log carries headers, and comes behind a request for
them that was sent. -/
def ReceivesHeaders (log : List WireEvent) (payload : Span UInt8) : Prop :=
  ∃ before message getHeaders, log = before ++ [.received message] ∧
    message.command = ascii "headers" ∧ message.payload = payload ∧
    WireEvent.attempted (ascii "getheaders") getHeaders true ∈ before

/-- The log of an attempt to receive headers. -/
structure RequestsHeaders (incoming : List DecodedMessage)
    (outcome : (Option (Span UInt8) × SignetHeadersResult) × List WireEvent) :
    Prop where
  ended : Ended incoming outcome.2
  received : ∀ payload, outcome.1.1 = some payload →
    ReceivesHeaders outcome.2 payload ∧ outcome.1.2.headers = []

theorem requestHeadersLogged_requests (getHeaders : ByteString) (port : UInt16)
    (now : UInt64) (endpoint : Endpoint) :
    RequestsHeaders endpoint.socket.incoming
      (requestHeadersLogged getHeaders port now endpoint) := by
  have shaken := completeVersionHandshakeLogged_listens endpoint.address port now
    endpoint.socket
  unfold requestHeadersLogged
  generalize completeVersionHandshakeLogged endpoint.address port now
    endpoint.socket = outcome at shaken
  obtain ⟨⟨done, socket, handshake⟩, log⟩ := outcome
  obtain ⟨ended, greeted⟩ := shaken
  dsimp only at ended greeted ⊢
  split
  · exact ⟨ended, nofun⟩
  next isDone =>
  have request := (greeted (not_not.mp isDone)).request (ascii "getheaders")
    getHeaders (sendMessage (ascii "getheaders") getHeaders socket).1 rfl
  split
  · exact ⟨request.1, nofun⟩
  next isSent =>
  have sent := not_not.mp isSent
  have awaits := awaitHeadersLogged_awaits (socket.incoming.length + 1)
    (sendMessage (ascii "getheaders") getHeaders socket).2 (request.2 sent)
    (by simp [WireEvent.isRequest]) handshake.trace
  refine ⟨awaits.ended, fun payload found => ⟨?_, rfl⟩⟩
  obtain ⟨before, message, extends_, last, isHeaders, carries⟩ :=
    awaits.received payload found
  refine ⟨before, message, getHeaders, last, isHeaders, carries, ?_⟩
  rw [sent] at extends_
  exact extends_.subset List.mem_concat_self

/-- A connection over which the client keeps to the protocol; it receives what
the peer sends. -/
structure Connection.Safe (connection : Connection) : Prop where
  heard : receivedMessages connection.log <+: connection.endpoint.socket.incoming
  handshake : HandshakeSafe connection.log

theorem Ended.safe {endpoint : Endpoint} {log : List WireEvent}
    (ended : Ended endpoint.socket.incoming log) : Connection.Safe ⟨endpoint, log⟩ :=
  ⟨ended.heard, ended.handshakeSafe⟩

theorem receiveHeadersLogged_safe (getHeaders : ByteString) (port : UInt16)
    (now : UInt64) (endpoints : List Endpoint) (result : SignetHeadersResult) :
    ∀ connection ∈ (receiveHeadersLogged getHeaders port now endpoints result).2,
      connection.Safe := by
  induction endpoints generalizing result with
  | nil => nofun
  | cons endpoint rest ih =>
      unfold receiveHeadersLogged
      split
      · exact ih result
      have requests := requestHeadersLogged_requests getHeaders port now endpoint
      generalize requestHeadersLogged getHeaders port now endpoint = attempt
        at requests
      obtain ⟨⟨_ | payload, after⟩, log⟩ := attempt
      · exact List.forall_mem_cons.mpr ⟨requests.ended.safe, ih after⟩
      · exact List.forall_mem_singleton.mpr requests.ended.safe

/-- Headers that arrive come over one of the connections. -/
theorem receiveHeadersLogged_receives {getHeaders : ByteString} {port : UInt16}
    {now : UInt64} {endpoints : List Endpoint} {result after : SignetHeadersResult}
    {payload : Span UInt8} {address : Address}
    (received : (receiveHeadersLogged getHeaders port now endpoints result).1 =
      (some (payload, address), after)) :
    after.headers = [] ∧
      ∃ connection ∈ (receiveHeadersLogged getHeaders port now endpoints result).2,
        ReceivesHeaders connection.log payload := by
  induction endpoints generalizing result with
  | nil => cases received
  | cons endpoint rest ih =>
      unfold receiveHeadersLogged at received ⊢
      split at received
      · next skipped =>
          rw [if_pos skipped]
          exact ih received
      next connects =>
      rw [if_neg connects]
      have requests := requestHeadersLogged_requests getHeaders port now endpoint
      generalize requestHeadersLogged getHeaders port now endpoint = attempt
        at requests received
      obtain ⟨⟨_ | found, learned⟩, log⟩ := attempt
      · obtain ⟨fresh, connection, member, carries⟩ := ih received
        exact ⟨fresh, connection, List.mem_cons_of_mem _ member, carries⟩
      · cases received
        obtain ⟨carries, fresh⟩ := requests.received payload rfl
        exact ⟨fresh, ⟨endpoint, log⟩, List.mem_singleton.mpr rfl, carries⟩

theorem requestBlocksLogged_listens (getData : ByteString) (port : UInt16)
    (now : UInt64) (endpoint : Endpoint) :
    let outcome := requestBlocksLogged getData port now endpoint
    Ended endpoint.socket.incoming outcome.2 ∧ (outcome.1.1 = true →
      Listening endpoint.socket.incoming outcome.1.2.1.incoming outcome.2 ∧
        requested outcome.2 = true) := by
  have shaken := completeVersionHandshakeLogged_listens endpoint.address port now
    endpoint.socket
  unfold requestBlocksLogged
  generalize completeVersionHandshakeLogged endpoint.address port now
    endpoint.socket = outcome at shaken
  obtain ⟨⟨done, socket, handshake⟩, log⟩ := outcome
  obtain ⟨ended, greeted⟩ := shaken
  dsimp only at ended greeted ⊢
  split
  · exact ⟨ended, nofun⟩
  · next isDone =>
      have request := (greeted (not_not.mp isDone)).request (ascii "getdata")
        getData (sendMessage (ascii "getdata") getData socket).1 rfl
      exact ⟨request.1, fun sent => ⟨request.2 sent, by simp [WireEvent.isRequest]⟩⟩

theorem tryEndpointLogged_ended (doubleSha256 : ByteString → Hash256) (wanted : Nat)
    (getData : ByteString) (port : UInt16) (now : UInt64) (endpoint : Endpoint) :
    Ended endpoint.socket.incoming
      (tryEndpointLogged doubleSha256 wanted getData port now endpoint).2 := by
  have listens := requestBlocksLogged_listens getData port now endpoint
  unfold tryEndpointLogged
  generalize requestBlocksLogged getData port now endpoint = outcome at listens
  obtain ⟨⟨isRequested, socket, result⟩, log⟩ := outcome
  obtain ⟨ended, goesOn⟩ := listens
  dsimp only at ended goesOn ⊢
  split
  · exact ended
  · next isAsked =>
      obtain ⟨listening, asked⟩ := goesOn (not_not.mp isAsked)
      exact receiveBlocksLogged_ended doubleSha256 wanted _ _ _ listening asked

theorem tryEndpointsLogged_safe (doubleSha256 : ByteString → Hash256) (wanted : Nat)
    (getData : ByteString) (port : UInt16) (now : UInt64)
    (endpoints : List Endpoint) (result : SignetBlocksResult) :
    ∀ connection ∈ (tryEndpointsLogged doubleSha256 wanted getData port now
      endpoints result).2, connection.Safe := by
  induction endpoints generalizing result with
  | nil => nofun
  | cons endpoint rest ih =>
      unfold tryEndpointsLogged
      split
      · exact ih result
      have ended :=
        tryEndpointLogged_ended doubleSha256 wanted getData port now endpoint
      generalize tryEndpointLogged doubleSha256 wanted getData port now endpoint =
        attempt at ended
      split
      · exact List.forall_mem_cons.mpr ⟨ended.safe, ih _⟩
      · exact List.forall_mem_singleton.mpr ended.safe

theorem fetchHeadersLogged_safe (doubleSha256 : ByteString → Hash256)
    (options : SignetLiveOptions) (world : ImportWorld) :
    ∀ connection ∈ (fetchHeadersLogged doubleSha256 options world).2,
      connection.Safe := by
  unfold fetchHeadersLogged
  cases world.endpoints with
  | none => nofun
  | some endpoints =>
      cases encodeGetHeadersPayload options.locatorHashHex with
      | none => nofun
      | some getHeaders =>
          dsimp only
          have safe := receiveHeadersLogged_safe getHeaders options.port world.now
            endpoints {}
          generalize receiveHeadersLogged getHeaders options.port world.now
            endpoints {} = received at safe
          obtain ⟨⟨_ | ⟨payload, address⟩, result⟩, connections⟩ := received
          · exact safe
          · dsimp only
            split <;> exact safe

theorem fetchBlocksLogged_safe (doubleSha256 : ByteString → Hash256)
    (blockHashes : List ByteString) (world : FetchWorld) :
    ∀ connection ∈ (fetchBlocksLogged doubleSha256 blockHashes world).2,
      connection.Safe := by
  unfold fetchBlocksLogged fetchFromPeersLogged
  split
  · nofun
  split
  · nofun
  · nofun
  cases encodeGetDataPayload blockHashes with
  | none => nofun
  | some getData =>
      cases world.endpoints with
      | none => nofun
      | some endpoints => exact tryEndpointsLogged_safe _ _ _ _ _ _ _

/-- The headers in a payload, if it is well formed. -/
def headersOf (doubleSha256 : ByteString → Hash256) (payload : Span UInt8)
    (locatorHeight : UInt32) : Option (List Header) :=
  let (status, result) := parseHeadersPayload doubleSha256 payload locatorHeight {}
  if status.isOk then some result.headers else none

/-- Parsing looks only at the headers that are there before. -/
theorem parseHeadersFrom_congr (doubleSha256 : ByteString → Hash256)
    (payload : Span UInt8) (locatorHeight : UInt32) (count : Nat) (index : UInt32)
    (offset : Nat) {first second : SignetHeadersResult}
    (same : first.headers = second.headers) :
    (parseHeadersFrom doubleSha256 payload locatorHeight count index offset first).1 =
        (parseHeadersFrom doubleSha256 payload locatorHeight count index offset
          second).1 ∧
      (parseHeadersFrom doubleSha256 payload locatorHeight count index offset
          first).2.headers =
        (parseHeadersFrom doubleSha256 payload locatorHeight count index offset
          second).2.headers := by
  induction count generalizing index offset first second with
  | zero => exact ⟨rfl, same⟩
  | succ count ih =>
      unfold parseHeadersFrom
      split
      · exact ⟨rfl, same⟩
      dsimp only
      split
      · exact ⟨rfl, same⟩
      · exact ih _ _ (by rw [same])

theorem headersOf_eq_some {doubleSha256 : ByteString → Hash256}
    {payload : Span UInt8} {locatorHeight : UInt32} {before : SignetHeadersResult}
    (fresh : before.headers = [])
    (isOk : (parseHeadersPayload doubleSha256 payload locatorHeight
      before).1.isOk = true) :
    headersOf doubleSha256 payload locatorHeight =
      some (parseHeadersPayload doubleSha256 payload locatorHeight
        before).2.headers := by
  unfold headersOf
  unfold parseHeadersPayload at isOk ⊢
  split at isOk
  · cases isOk
  next count offset counted =>
  split at isOk
  · cases isOk
  next positive =>
  have same : before.headers = ({} : SignetHeadersResult).headers := fresh
  obtain ⟨status, headers⟩ := parseHeadersFrom_congr doubleSha256 payload
    locatorHeight count.toNat 0 offset same
  rw [if_neg positive, if_neg positive]
  dsimp only
  rw [← status, if_pos isOk, headers]

/-- A call that succeeds returns the headers of a message that was received over
one of its connections behind the request. -/
def ReturnsReceivedHeaders (doubleSha256 : ByteString → Hash256)
    (options : SignetLiveOptions) (world : ImportWorld) : Prop :=
  (fetchHeaders doubleSha256 options world).1.isOk = true →
    ∃ connection ∈ (fetchHeadersLogged doubleSha256 options world).2, ∃ payload,
      ReceivesHeaders connection.log payload ∧
      headersOf doubleSha256 payload options.locatorHeight =
        some (fetchHeaders doubleSha256 options world).2.headers

theorem fetchHeaders_returnsReceived (doubleSha256 : ByteString → Hash256)
    (options : SignetLiveOptions) (world : ImportWorld) :
    ReturnsReceivedHeaders doubleSha256 options world := by
  unfold ReturnsReceivedHeaders
  rw [← fetchHeadersLogged_fst]
  unfold fetchHeadersLogged
  cases world.endpoints with
  | none => nofun
  | some endpoints =>
      cases encodeGetHeadersPayload options.locatorHashHex with
      | none => nofun
      | some getHeaders =>
          dsimp only
          cases received : receiveHeadersLogged getHeaders options.port world.now
              endpoints {} with
          | mk outcome connections =>
              obtain ⟨_ | ⟨payload, address⟩, result⟩ := outcome
              · nofun
              obtain ⟨fresh, connection, member, carries⟩ :=
                receiveHeadersLogged_receives (congrArg Prod.fst received)
              rw [received] at member
              dsimp only
              split
              · next failed =>
                  intro isOk
                  rw [Bool.not_eq_true', isOk] at failed
                  cases failed
              · next parsed =>
                  intro _
                  refine ⟨connection, member, payload, carries, ?_⟩
                  exact headersOf_eq_some fresh (by simpa using parsed)

/-- Over every connection that fetching headers or blocks opens, the client keeps
to the protocol, and headers are returned only from a message that answers the
request. -/
theorem fetches_keep_protocol (doubleSha256 : ByteString → Hash256)
    (options : SignetLiveOptions) (importWorld : ImportWorld)
    (blockHashes : List ByteString) (fetchWorld : FetchWorld) :
    ((fetchHeadersLogged doubleSha256 options importWorld).1 =
        fetchHeaders doubleSha256 options importWorld ∧
      (∀ connection ∈ (fetchHeadersLogged doubleSha256 options importWorld).2,
        connection.Safe) ∧
      ReturnsReceivedHeaders doubleSha256 options importWorld) ∧
    ((fetchBlocksLogged doubleSha256 blockHashes fetchWorld).1 =
        fetchBlocks doubleSha256 blockHashes fetchWorld ∧
      ∀ connection ∈ (fetchBlocksLogged doubleSha256 blockHashes fetchWorld).2,
        connection.Safe) :=
  ⟨⟨fetchHeadersLogged_fst doubleSha256 options importWorld,
      fetchHeadersLogged_safe doubleSha256 options importWorld,
      fetchHeaders_returnsReceived doubleSha256 options importWorld⟩,
    fetchBlocksLogged_fst blockHashes fetchWorld,
    fetchBlocksLogged_safe doubleSha256 blockHashes fetchWorld⟩

end Bitcoin

end Blocxxi
