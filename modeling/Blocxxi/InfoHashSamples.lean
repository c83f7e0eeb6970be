import Blocxxi.AnnouncedPeers

/-!
# Samples of info hashes

The sample of a node is a string without separators, which is read by cutting it
into pieces of twenty bytes.  Nothing checks the length of an announced info
hash, so the pieces are the info hashes only as long as every announcement that
was recorded had twenty bytes.
-/

namespace Blocxxi

namespace Kademlia

open Cxx Bencode ByteText P2P StepMachine

/-- The first pieces of a text, each of the given size. -/
def pieces (size : Nat) : Nat → ByteString → List ByteString
  | 0, _ => []
  | count + 1, text => text.take size :: pieces size count (text.drop size)

/-- A text cut into pieces of twenty bytes, of which the last may be shorter. -/
def samplePieces (text : ByteString) : List ByteString :=
  pieces 20 ((text.length + 19) / 20) text

theorem length_flatten_of_size {size : Nat} {keys : List ByteString}
    (sized : ∀ key ∈ keys, key.length = size) :
    keys.flatten.length = size * keys.length := by
  induction keys with
  | nil => rfl
  | cons key keys ih =>
      have keySize := sized key List.mem_cons_self
      have restSize := ih fun other member =>
        sized other (List.mem_cons_of_mem key member)
      rw [List.flatten_cons, List.length_append, keySize, restSize,
        List.length_cons, Nat.mul_succ, Nat.add_comm]

theorem pieces_flatten {size : Nat} {keys : List ByteString}
    (sized : ∀ key ∈ keys, key.length = size) :
    pieces size keys.length keys.flatten = keys := by
  induction keys with
  | nil => rfl
  | cons key keys ih =>
      have keySize := sized key List.mem_cons_self
      rw [List.length_cons, List.flatten_cons, pieces, List.take_left' keySize,
        List.drop_left' keySize,
        ih fun other member => sized other (List.mem_cons_of_mem key member)]

/-- The pieces of a text that is long enough have the full size. -/
theorem length_of_mem_pieces {size count : Nat} {text piece : ByteString}
    (long : size * count ≤ text.length) (member : piece ∈ pieces size count text) :
    piece.length = size := by
  induction count generalizing text with
  | zero => cases member
  | succ count ih =>
      rw [Nat.mul_succ] at long
      rcases List.mem_cons.mp member with rfl | inRest
      · rw [List.length_take]
        omega
      · apply ih _ inRest
        rw [List.length_drop]
        omega

theorem samplePieces_flatten {keys : List ByteString}
    (sized : ∀ key ∈ keys, key.length = 20) : samplePieces keys.flatten = keys := by
  have count : (keys.flatten.length + 19) / 20 = keys.length := by
    rw [length_flatten_of_size sized]
    omega
  rw [samplePieces, count]
  exact pieces_flatten sized

/-- The info hash has an announced peer. -/
def Recorded (tables : PeerTables) (infoHash : ByteString) : Prop :=
  ∃ peers, tables.announcedPeers.lookup infoHash = some peers ∧ peers ≠ []

/-- The payload's `samples` has twenty bytes for each of its `num`, and its
pieces are the info hashes with a peer, each once. -/
def FaithfulSample (node : Node) (tables : PeerTables) : Prop :=
  ∀ values, makeSampleInfohashesPayload node tables.announcedPeers =
      .returned values →
    ∃ samples num, values.lookup (ascii "samples") = some (.string samples) ∧
      values.lookup (ascii "num") = some (.integer num) ∧
      (samples.length : Int) = 20 * num.toInt ∧
      (samplePieces samples).Nodup ∧
      ∀ infoHash, infoHash ∈ samplePieces samples ↔ Recorded tables infoHash

/-- The samples and their number in the payload. -/
theorem payload_returned {node : Node}
    {announced : OrderedMap ByteString (List IpEndpoint)} {values : DictionaryType}
    (returned : makeSampleInfohashesPayload node announced = .returned values) :
    values.lookup (ascii "samples") = some (.string (sampleText announced)) ∧
      values.lookup (ascii "num") =
        some (.integer (Int64.ofNat announced.entries.length)) := by
  obtain ⟨nodes, -, built⟩ := Outcome.bind_returned returned
  cases built
  exact ⟨rfl, rfl⟩

theorem payload_returns {node : Node} (v4 : isV4 node.endpoint = true)
    (announced : OrderedMap ByteString (List IpEndpoint)) :
    ∃ values, makeSampleInfohashesPayload node announced = .returned values := by
  rw [makeSampleInfohashesPayload, encodeCompactNode_v4 v4]
  exact ⟨_, rfl⟩

/-- Without empty lists the sample is made of all info hashes. -/
theorem sampleText_eq {announced : OrderedMap ByteString (List IpEndpoint)}
    (nonempty : ∀ entry ∈ announced.entries, entry.2 ≠ []) :
    sampleText announced = (announced.entries.map Prod.fst).flatten := by
  unfold sampleText
  rw [← List.flatMap_def]
  apply List.flatMap_congr
  intro entry member
  rw [if_neg]
  rw [List.isEmpty_iff]
  exact nonempty entry member

theorem recorded_iff {tables : PeerTables} {infoHash : ByteString}
    (nonempty : ∀ entry ∈ tables.announcedPeers.entries, entry.2 ≠ []) :
    Recorded tables infoHash ↔
      infoHash ∈ tables.announcedPeers.entries.map Prod.fst := by
  constructor
  · rintro ⟨peers, found, -⟩
    exact List.mem_map.mpr ⟨_, OrderedMap.mem_iff_lookup.mpr found, rfl⟩
  · intro member
    obtain ⟨⟨_, peers⟩, entryMem, rfl⟩ := List.mem_map.mp member
    exact ⟨peers, OrderedMap.mem_iff_lookup.mp entryMem, nonempty _ entryMem⟩

/-- A sample is faithful exactly when every recorded info hash has twenty
bytes. -/
theorem faithfulSample_iff {node : Node} (v4 : isV4 node.endpoint = true)
    {tables : PeerTables}
    (nonempty : ∀ entry ∈ tables.announcedPeers.entries, entry.2 ≠ [])
    (fits : tables.announcedPeers.entries.length < 2 ^ 63) :
    FaithfulSample node tables ↔
      ∀ infoHash, Recorded tables infoHash → infoHash.length = 20 := by
  constructor
  · intro faithful infoHash recorded
    obtain ⟨values, returned⟩ := payload_returns v4 tables.announcedPeers
    obtain ⟨samples, num, -, -, length, -, members⟩ := faithful values returned
    have long : 20 * ((samples.length + 19) / 20) ≤ samples.length := by omega
    exact length_of_mem_pieces long ((members infoHash).mpr recorded)
  · intro sized values returned
    obtain ⟨isSamples, isNum⟩ := payload_returned returned
    have keysSized : ∀ key ∈ tables.announcedPeers.entries.map Prod.fst,
        key.length = 20 := by
      intro key member
      exact sized key ((recorded_iff nonempty).mpr member)
    refine ⟨_, _, isSamples, isNum, ?_, ?_, ?_⟩
    · have number : (Int64.ofNat tables.announcedPeers.entries.length).toInt =
          tables.announcedPeers.entries.length :=
        Int64.toInt_ofNat_of_lt fits
      rw [sampleText_eq nonempty, length_flatten_of_size keysSized, number,
        List.length_map]
      omega
    · rw [sampleText_eq nonempty, samplePieces_flatten keysSized]
      exact OrderedMap.keys_nodup tables.announcedPeers.ascend
    · intro infoHash
      rw [sampleText_eq nonempty, samplePieces_flatten keysSized,
        recorded_iff nonempty]

variable (v6Text : ByteString → ByteString) (node : Node)

/-- No list of announced peers is empty. -/
theorem announcedPeers_nonempty (history : List Datagram) :
    ∀ entry ∈ (tablesAfter v6Text node history).announcedPeers.entries,
      entry.2 ≠ [] := by
  induction history using List.reverseRecOn with
  | nil => exact fun entry member => by cases member
  | append_singleton history datagram ih =>
      rw [tablesAfter_append_singleton]
      rcases answerDatagram_cases node datagram (tablesAfter v6Text node history)
        with ⟨-, result⟩ | ⟨infoHash, -, endpoint, -, result⟩ | result
      · rw [result]
        exact ih
      · rw [result]
        rintro ⟨otherHash, peers⟩ member
        have found := OrderedMap.mem_iff_lookup.mp member
        rw [OrderedMap.lookup_alter] at found
        split at found
        · cases found
          exact recordPeer_ne_nil _ _
        · exact ih _ (OrderedMap.mem_iff_lookup.mpr found)
      · rw [result]
        exact ih

/-- No info hash is forgotten. -/
theorem entries_length_le (before after : List Datagram) :
    (tablesAfter v6Text node before).announcedPeers.entries.length ≤
      (tablesAfter v6Text node
        (before ++ after)).announcedPeers.entries.length := by
  induction after using List.reverseRecOn with
  | nil => rw [List.append_nil]
  | append_singleton after datagram ih =>
      rw [← List.append_assoc, tablesAfter_append_singleton]
      apply Nat.le_trans ih
      rcases answerDatagram_cases node datagram
          (tablesAfter v6Text node (before ++ after))
        with ⟨-, result⟩ | ⟨infoHash, -, endpoint, -, result⟩ | result
      · rw [result]
      · rw [result]
        exact OrderedMap.length_le_alterEntries _ _ _
      · rw [result]

/-- The datagram announces a peer for the info hash, and it is recorded. -/
def AnnouncesHash (before : List Datagram) (datagram : Datagram)
    (infoHash : ByteString) : Prop :=
  ∃ token endpoint, Announces v6Text (tablesAfter v6Text node before) datagram
    infoHash token endpoint

theorem recorded_of_announces {before : List Datagram} {datagram : Datagram}
    {infoHash : ByteString}
    (announces : AnnouncesHash v6Text node before datagram infoHash) :
    Recorded (tablesAfter v6Text node (before ++ [datagram])) infoHash := by
  obtain ⟨token, endpoint, announces⟩ := announces
  rw [tablesAfter_append_singleton, answerDatagram_announces node announces]
  refine ⟨recordPeer endpoint ((tablesAfter v6Text node before).announcedPeers.lookup
    infoHash), ?_, recordPeer_ne_nil _ _⟩
  rw [OrderedMap.lookup_alter, if_pos rfl]

/-- Every recorded info hash was announced. -/
theorem announced_of_recorded {history : List Datagram} {infoHash : ByteString}
    (recorded : Recorded (tablesAfter v6Text node history) infoHash) :
    ∃ before datagram after, history = before ++ datagram :: after ∧
      AnnouncesHash v6Text node before datagram infoHash := by
  induction history using List.reverseRecOn with
  | nil =>
      obtain ⟨peers, found, -⟩ := recorded
      cases found
  | append_singleton history datagram ih =>
      have later : Recorded (tablesAfter v6Text node history) infoHash →
          ∃ before other after, history ++ [datagram] = before ++ other :: after ∧
            AnnouncesHash v6Text node before other infoHash := by
        intro earlier
        obtain ⟨before, other, after, rfl, announces⟩ := ih earlier
        exact ⟨before, other, after ++ [datagram], by simp, announces⟩
      rw [tablesAfter_append_singleton] at recorded
      rcases answerDatagram_cases node datagram (tablesAfter v6Text node history)
        with ⟨-, result⟩ | ⟨otherHash, token, endpoint, announces, result⟩ | result
      · rw [result] at recorded
        exact later recorded
      · by_cases same : infoHash = otherHash
        · subst same
          exact ⟨history, datagram, [], rfl, token, endpoint, announces⟩
        · rw [result] at recorded
          obtain ⟨peers, found, nonempty⟩ := recorded
          rw [OrderedMap.lookup_alter, if_neg same] at found
          exact later ⟨peers, found, nonempty⟩
      · rw [result] at recorded
        exact later recorded

/-- The samples of a node are faithful at all times exactly when its address is
not IPv4, so that it makes none, or every info hash it recorded had twenty
bytes. -/
theorem samplesFaithful_iff (history : List Datagram)
    (fits : (tablesAfter v6Text node history).announcedPeers.entries.length <
      2 ^ 63) :
    (∀ before after, history = before ++ after →
      FaithfulSample node (tablesAfter v6Text node before)) ↔
    (isV4 node.endpoint = true → ∀ before datagram after infoHash,
      history = before ++ datagram :: after →
        AnnouncesHash v6Text node before datagram infoHash →
          infoHash.length = 20) := by
  have fitsBefore {before after : List Datagram} (split : history = before ++ after) :
      (tablesAfter v6Text node before).announcedPeers.entries.length < 2 ^ 63 := by
    subst split
    exact Nat.lt_of_le_of_lt (entries_length_le v6Text node before after) fits
  have atTime {before after : List Datagram} (v4 : isV4 node.endpoint = true)
      (split : history = before ++ after) :=
    faithfulSample_iff v4 (announcedPeers_nonempty v6Text node before)
      (fitsBefore split)
  constructor
  · intro faithful v4 before datagram after infoHash split announces
    have sinceThen : history = (before ++ [datagram]) ++ after := by
      rw [split, List.append_assoc, List.singleton_append]
    exact (atTime v4 sinceThen).mp (faithful _ _ sinceThen) infoHash
      (recorded_of_announces v6Text node announces)
  · intro sized before after split
    by_cases v4 : isV4 node.endpoint = true
    · apply (atTime v4 split).mpr
      intro infoHash recorded
      obtain ⟨earlier, datagram, between, rfl, announces⟩ :=
        announced_of_recorded v6Text node recorded
      exact sized v4 earlier datagram (between ++ after) infoHash
        (by rw [split, List.append_assoc, List.cons_append]) announces
    · intro values returned
      rw [makeSampleInfohashesPayload, encodeCompactNode, if_neg v4] at returned
      cases returned

/-- Asking for peers, then announcing one for an info hash of twenty bytes. -/
def fullHashHistory : List Datagram :=
  [askingDatagram v4Sender,
    { sender := v4Sender
      bytes := ascii ("d1:ad12:implied_porti1e9:info_hash20:" ++
        "abcdefghij0123456789" ++
        "5:token11:127.0.0.1:7e1:q13:announce_peer1:t1:b1:y1:qe")
      steps := 140 }]

theorem samplesFaithful_fullHash :
    FaithfulSample ⟨Hash.zero, v4Sender⟩
      (tablesAfter loopbackText ⟨Hash.zero, v4Sender⟩ fullHashHistory) := by
  have evaluated : ∀ count < 3,
      (tablesAfter loopbackText ⟨Hash.zero, v4Sender⟩
          (fullHashHistory.take count)).announcedPeers.entries.length ≤ 1 ∧
        ∀ entry ∈ (tablesAfter loopbackText ⟨Hash.zero, v4Sender⟩
          (fullHashHistory.take count)).announcedPeers.entries,
            entry.1.length = 20 := by
    decide +kernel
  have few : (tablesAfter loopbackText ⟨Hash.zero, v4Sender⟩
      fullHashHistory).announcedPeers.entries.length ≤ 1 := by
    have whole : fullHashHistory.take 2 = fullHashHistory := rfl
    have atEnd := (evaluated 2 (by decide)).1
    rwa [whole] at atEnd
  apply (samplesFaithful_iff loopbackText ⟨Hash.zero, v4Sender⟩ fullHashHistory
    (Nat.lt_of_le_of_lt few (by decide))).mpr _ fullHashHistory [] (List.append_nil _).symm
  intro _ before datagram after infoHash split announces
  have recorded := recorded_of_announces loopbackText _ announces
  have isPrefix : before ++ [datagram] =
      fullHashHistory.take (before.length + 1) := by
    have sinceThen : fullHashHistory = (before ++ [datagram]) ++ after := by
      rw [split, List.append_assoc, List.singleton_append]
    rw [sinceThen]
    exact (List.take_left' List.length_append).symm
  have length := congrArg List.length split
  simp only [fullHashHistory, List.length_cons, List.length_nil,
    List.length_append] at length
  rw [isPrefix, recorded_iff (announcedPeers_nonempty loopbackText _ _)] at recorded
  obtain ⟨entry, member, rfl⟩ := List.mem_map.mp recorded
  exact (evaluated (before.length + 1) (by omega)).2 entry member

/-- An announcement for an info hash of one byte breaks the sample. -/
theorem samples_notFaithful :
    ¬ ∀ (v6Text : ByteString → ByteString) (node : Node)
        (history : List Datagram),
      FaithfulSample node (tablesAfter v6Text node history) := by
  intro always
  have faithful := always loopbackText ⟨Hash.zero, v4Sender⟩
    [askingDatagram v4Sender, announcingDatagram v4Sender "11:127.0.0.1:7"]
  have nonempty := announcedPeers_nonempty loopbackText ⟨Hash.zero, v4Sender⟩
    [askingDatagram v4Sender, announcingDatagram v4Sender "11:127.0.0.1:7"]
  have recorded : Recorded (tablesAfter loopbackText ⟨Hash.zero, v4Sender⟩
      [askingDatagram v4Sender, announcingDatagram v4Sender "11:127.0.0.1:7"])
      (ascii "h") := by
    rw [recorded_iff nonempty, announced_loopback]
    exact List.mem_singleton_self _
  have length := (faithfulSample_iff rfl nonempty
    (by rw [announced_loopback]; decide)).mp faithful _ recorded
  revert length
  decide

end Kademlia

end Blocxxi
