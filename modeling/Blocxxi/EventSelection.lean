import Blocxxi.EventDhtQuery

/-!
# What a query of the event store selects

A query filters the stored events, sorts them and cuts the list, so what it returns
is fixed up to events that were published at the same time.  The filter for the
window compares the two windows bound by bound; nothing looks at whether a window
ends before it starts.
-/

namespace Blocxxi

namespace P2P

open Blocxxi.Core Cxx ByteText

/-- The event's window does not end before the query's starts, and does not start
after the query's ends. -/
def WindowReaches (window : EventWindow) (query : EventQuery) : Prop :=
  (∀ start, query.windowStartUtc = some start → start ≤ window.endUtc) ∧
    ∀ stop, query.windowEndUtc = some stop → window.startUtc ≤ stop

/-- Some time lies in both windows. -/
def WindowsMeet (window : EventWindow) (query : EventQuery) : Prop :=
  ∃ time : Int64, window.startUtc ≤ time ∧ time ≤ window.endUtc ∧
    (∀ start, query.windowStartUtc = some start → start ≤ time) ∧
      ∀ stop, query.windowEndUtc = some stop → time ≤ stop

/-- The filter for the window, where it is present. -/
def WindowFilter (window : EventWindow) (query : EventQuery) : Prop :=
  query.windowStartUtc.isSome ∨ query.windowEndUtc.isSome → WindowsMeet window query

/-- The query's window, if it has both ends, does not end before it starts. -/
def EventQuery.Ordered (query : EventQuery) : Prop :=
  ∀ start stop, query.windowStartUtc = some start → query.windowEndUtc = some stop →
    start ≤ stop

/-- Windows meet when each reaches the other, if neither is the wrong way round. -/
theorem windowsMeet_iff {window : EventWindow} {query : EventQuery}
    (windowOrdered : window.startUtc ≤ window.endUtc) (queryOrdered : query.Ordered) :
    WindowsMeet window query ↔ WindowReaches window query := by
  constructor
  · rintro ⟨time, behindStart, beforeEnd, behindQuery, beforeQuery⟩
    exact ⟨fun start isStart => Int64.le_trans (behindQuery start isStart) beforeEnd,
      fun stop isStop => Int64.le_trans behindStart (beforeQuery stop isStop)⟩
  · rintro ⟨reachesStart, reachesEnd⟩
    cases isStart : query.windowStartUtc with
    | none =>
        refine ⟨window.startUtc, Int64.le_refl _, windowOrdered, ?_, reachesEnd⟩
        intro start given
        rw [isStart] at given
        cases given
    | some start =>
        -- The later of the two starts lies in both windows.
        rcases Int64.le_total start window.startUtc with earlier | later
        · refine ⟨window.startUtc, Int64.le_refl _, windowOrdered, ?_, reachesEnd⟩
          intro other given
          rw [isStart] at given
          cases given
          exact earlier
        · refine ⟨start, later, reachesStart start isStart, ?_, ?_⟩
          · intro other given
            rw [isStart] at given
            cases given
            exact Int64.le_refl _
          · exact fun stop isStop => queryOrdered start stop isStart isStop

/-- Every filter of the query that is present holds. -/
structure Satisfies (inWindow : EventWindow → EventQuery → Prop)
    (published : PublishedEvent) (query : EventQuery) : Prop where
  key : ∀ key, query.deterministicKey = some key → published.dhtKey = key
  eventType : ∀ eventType, query.eventType = some eventType →
    published.record.envelope.eventType = eventType
  taxonomy : ∀ taxonomy, query.taxonomy = some taxonomy →
    published.record.envelope.taxonomy = taxonomy
  window : inWindow published.record.envelope.window query
  identifiers : ∀ identifier ∈ query.identifiers,
    identifier ∈ published.record.envelope.identifiers

theorem any_eq_false_iff {Item : Type} (filter : Option Item) (refuses : Item → Bool) :
    filter.any refuses = false ↔ ∀ item, filter = some item → refuses item = false := by
  cases filter <;> simp

theorem unless_eq_true_iff {refused rest : Bool} :
    (if refused = true then false else rest) = true ↔ refused = false ∧ rest = true := by
  cases refused <;> simp

/-- The code's filter, bound by bound. -/
theorem matchesQuery_iff (published : PublishedEvent) (query : EventQuery) :
    matchesQuery published query = true ↔ Satisfies WindowReaches published query := by
  have identifiers : matchesIdentifiers published.record query.identifiers = true ↔
      ∀ identifier ∈ query.identifiers,
        identifier ∈ published.record.envelope.identifiers := by
    simp [matchesIdentifiers]
  simp only [matchesQuery, unless_eq_true_iff, any_eq_false_iff, identifiers,
    decide_eq_false_iff_not, ne_eq, not_not, Int64.not_lt]
  constructor
  · rintro ⟨key, eventType, taxonomy, start, stop, identifiers⟩
    exact ⟨key, eventType, taxonomy, ⟨start, stop⟩, identifiers⟩
  · rintro ⟨key, eventType, taxonomy, ⟨start, stop⟩, identifiers⟩
    exact ⟨key, eventType, taxonomy, start, stop, identifiers⟩

/-- As many of the stored events in demand as the limit allows, the newest first;
what is left out is not newer, and nothing is taken twice. -/
structure Selects (inDemand : PublishedEvent → Prop) (limit : Nat)
    (stored selected : List PublishedEvent) : Prop where
  split : ∃ omitted others, (selected ++ omitted ++ others).Perm stored ∧
    (∀ published ∈ selected ++ omitted, inDemand published) ∧
    (∀ published ∈ others, ¬ inDemand published) ∧
    selected.length = min limit (selected ++ omitted).length ∧
    ∀ published ∈ selected, ∀ left ∈ omitted,
      left.publishedAtUtc ≤ published.publishedAtUtc
  newestFirst : selected.Pairwise fun first second =>
    second.publishedAtUtc ≤ first.publishedAtUtc

/-- All events in the store, bucket by bucket. -/
def MemoryEventDht.stored (dht : MemoryEventDht) : List PublishedEvent :=
  dht.entries.flatMap Prod.snd

/-- Sorting and cutting selects the newest. -/
theorem selects_take (arrangement : Arrangement) {inDemand : PublishedEvent → Prop}
    {matches_ : PublishedEvent → Bool}
    (decides : ∀ published, matches_ published = true ↔ inDemand published)
    (limit : Nat) {stored matching : List PublishedEvent}
    (isMatching : matching.Perm (stored.filter matches_)) :
    Selects inDemand limit stored ((arrangement.sort matching).take limit) := by
  have sorted := arrangement.sort_perm matching
  have newest := arrangement.sort_newest matching
  have parts := List.take_append_drop limit (arrangement.sort matching)
  refine ⟨⟨(arrangement.sort matching).drop limit,
    stored.filter (fun published => !matches_ published), ?_, ?_, ?_, ?_, ?_⟩, ?_⟩
  · rw [parts]
    exact ((sorted.trans isMatching).append_right _).trans
      (List.filter_append_perm matches_ stored)
  · intro published member
    rw [parts] at member
    have isStored := (sorted.trans isMatching).mem_iff.mp member
    exact (decides published).mp (List.mem_filter.mp isStored).2
  · intro published member demanded
    have refused := (List.mem_filter.mp member).2
    rw [(decides published).mpr demanded] at refused
    cases refused
  · rw [parts, List.length_take]
  · rw [← parts, List.pairwise_append] at newest
    exact newest.2.2
  · exact newest.sublist (List.take_sublist limit _)

theorem query_selects_reaching (arrangement : Arrangement) (query : EventQuery)
    (dht : MemoryEventDht) :
    Selects (fun published => Satisfies WindowReaches published query) query.limit
      dht.stored (dht.query arrangement query) := by
  apply selects_take arrangement fun published => matchesQuery_iff published query
  have iterated := (arrangement.iterate_perm dht.entries).flatMap_right fun entry =>
    entry.2.filter fun published => matchesQuery published query
  rw [MemoryEventDht.stored, List.filter_flatMap]
  exact iterated

/-- A query returns a selection of the stored events that satisfy it, where the
filter for the window is that it reaches the query's; if neither window is the wrong
way round, it is that they meet. -/
theorem query_selects :
    (∀ (arrangement : Arrangement) (query : EventQuery) (dht : MemoryEventDht),
      Selects (fun published => Satisfies WindowReaches published query) query.limit
        dht.stored (dht.query arrangement query)) ∧
    ∀ (window : EventWindow) (query : EventQuery),
      window.startUtc ≤ window.endUtc → query.Ordered →
        (WindowReaches window query ↔ WindowFilter window query) := by
  refine ⟨query_selects_reaching, fun window query windowOrdered queryOrdered => ?_⟩
  have meets := windowsMeet_iff windowOrdered queryOrdered
  constructor
  · exact fun reaches _ => meets.mpr reaches
  · intro filter
    by_cases present : query.windowStartUtc.isSome ∨ query.windowEndUtc.isSome
    · exact meets.mp (filter present)
    · rw [not_or, Option.not_isSome_iff_eq_none, Option.not_isSome_iff_eq_none] at present
      obtain ⟨noStart, noEnd⟩ := present
      constructor
      · intro start given
        rw [noStart] at given
        cases given
      · intro stop given
        rw [noEnd] at given
        cases given

theorem query_selects_bounded :
    WindowReaches { startUtc := 10, endUtc := 20 } { windowStartUtc := some 15 } ↔
      WindowFilter { startUtc := 10, endUtc := 20 } { windowStartUtc := some 15 } :=
  query_selects.2 _ _ (by decide) fun _ _ _ given => by cases given

/-- An event at the times 0 to 10. -/
def shortEvent : PublishedEvent where
  record := { envelope := { window := { startUtc := 0, endUtc := 10 } } }

/-- A query from the time 8 until the time 3 returns an event, though no time lies in
its window. -/
theorem query_selects_reversed :
    ¬ ∀ (arrangement : Arrangement) (query : EventQuery) (dht : MemoryEventDht),
      Selects (fun published => Satisfies WindowFilter published query) query.limit
        dht.stored (dht.query arrangement query) := by
  intro always
  have selects := always plainArrangement
    { windowStartUtc := some 8, windowEndUtc := some 3 } { entries := [([], [shortEvent])] }
  have isReturned : MemoryEventDht.query plainArrangement
      { windowStartUtc := some 8, windowEndUtc := some 3 }
      { entries := [([], [shortEvent])] } = [shortEvent] := by
    decide
  rw [isReturned] at selects
  obtain ⟨omitted, others, -, demanded, -⟩ := selects.split
  have satisfies := demanded shortEvent (by simp)
  obtain ⟨time, -, -, behind, before⟩ := satisfies.window (.inl rfl)
  have impossible := Int64.le_trans (behind 8 rfl) (before 3 rfl)
  exact absurd impossible (by decide)

end P2P

end Blocxxi
