import Mathlib.Data.List.Basic

/-!
# Streams that arrive in chunks

A stream is read with buffers of a given size, and every single read hands over
at most one chunk.  Reading on until a buffer is full gives the next items of the
stream, however it is cut into chunks.
-/

namespace ChunkedStream

variable {Item : Type*}

/-- One read into a buffer: the next chunk, as far as the buffer holds it. -/
def readSome (size : Nat) :
    List (List Item) → Option (List Item × List (List Item))
  | [] => none
  | chunk :: rest =>
      if chunk.length ≤ size then some (chunk, rest)
      else some (chunk.take size, chunk.drop size :: rest)

/-- Read on until `size` items are there, or the stream ends. -/
def readExact (size : Nat) :
    List (List Item) → Option (List Item) × List (List Item)
  | [] => if size = 0 then (some [], []) else (none, [])
  | chunk :: rest =>
      if size = 0 then (some [], chunk :: rest)
      else if chunk.length ≤ size then
        let (items, rest) := readExact (size - chunk.length) rest
        (items.map (chunk ++ ·), rest)
      else (some (chunk.take size), chunk.drop size :: rest)

@[simp]
theorem readExact_zero (chunks : List (List Item)) :
    readExact 0 chunks = (some [], chunks) := by
  cases chunks <;> simp [readExact]

/-- A stream that is long enough gives its first items, and goes on behind them. -/
theorem readExact_enough {size : Nat} {chunks : List (List Item)}
    (enough : size ≤ chunks.flatten.length) :
    (readExact size chunks).1 = some (chunks.flatten.take size) ∧
      (readExact size chunks).2.flatten = chunks.flatten.drop size := by
  induction chunks generalizing size with
  | nil =>
      have zero : size = 0 := by simpa using enough
      simp [zero]
  | cons chunk rest ih =>
      by_cases zero : size = 0
      · simp [zero]
      rw [List.flatten_cons, List.length_append] at enough
      by_cases fits : chunk.length ≤ size
      · obtain ⟨items, stream⟩ := @ih (size - chunk.length) (by omega)
        simp [readExact, zero, fits, items, stream, List.take_append,
          List.drop_append, List.take_of_length_le fits, List.drop_eq_nil_of_le fits]
      · have inside : size ≤ chunk.length := by omega
        simp [readExact, zero, fits, List.take_append_of_le_length inside,
          List.drop_append_of_le_length inside]

/-- A stream that is too short gives nothing, and has ended. -/
theorem readExact_short {size : Nat} {chunks : List (List Item)}
    (short : chunks.flatten.length < size) : readExact size chunks = (none, []) := by
  induction chunks generalizing size with
  | nil =>
      have positive : size ≠ 0 := by
        simp only [List.flatten_nil, List.length_nil] at short
        omega
      simp [readExact, positive]
  | cons chunk rest ih =>
      rw [List.flatten_cons, List.length_append] at short
      have positive : size ≠ 0 := by omega
      have fits : chunk.length ≤ size := by omega
      simp [readExact, positive, fits, @ih (size - chunk.length) (by omega)]

/-- What was read, and what is left, make up the stream. -/
theorem readExact_split {size : Nat} {chunks rest : List (List Item)}
    {items : List Item} (read : readExact size chunks = (some items, rest)) :
    items.length = size ∧ chunks.flatten = items ++ rest.flatten := by
  by_cases enough : size ≤ chunks.flatten.length
  · obtain ⟨isItems, isRest⟩ := readExact_enough enough
    rw [read] at isItems isRest
    cases isItems
    change rest.flatten = _ at isRest
    rw [isRest, List.take_append_drop, List.length_take]
    exact ⟨by omega, rfl⟩
  · rw [readExact_short (by omega)] at read
    cases read

/-- A stream that begins with the items gives them. -/
theorem readExact_append {items stream : List Item} {chunks : List (List Item)}
    (begins : chunks.flatten = items ++ stream) :
    ∃ rest, readExact items.length chunks = (some items, rest) ∧
      rest.flatten = stream := by
  have enough : items.length ≤ chunks.flatten.length := by
    rw [begins, List.length_append]
    omega
  obtain ⟨isItems, isRest⟩ := readExact_enough enough
  rw [begins, List.take_left] at isItems
  rw [begins, List.drop_left] at isRest
  exact ⟨(readExact items.length chunks).2, Prod.ext isItems rfl, isRest⟩

end ChunkedStream
